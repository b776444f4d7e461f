import Mathlib.Data.List.Induction
import Zulip.Foundation.Dict

/-!
# Dictionaries that index items by a key

An index lists, under each key, the items that have it: once each, and with no entry
for a key that no item has. `append` and `filterKey` are the two ways in which such a
dictionary is maintained; `Indexes.append` and `Indexes.filterKeys` say when the
result is an index of the changed collection.
-/

namespace Zulip

universe u v

variable {K : Type u} {V : Type v} [DecidableEq K]

namespace Dict

/-- `dict.setdefault(key, []).append(value)`. -/
def append (dict : Dict K (List V)) (key : K) (value : V) : Dict K (List V) :=
  dict.set key (dict.getD key [] ++ [value])

/-- Group items by a key, each group in the order of the items. -/
def group (key : V → K) (items : List V) : Dict K (List V) :=
  items.foldl (fun dict item => dict.append (key item) item) empty

/-- Filter the list of one key; a list that becomes empty is deleted with its key. -/
def filterKey (dict : Dict K (List V)) (key : K) (keep : V → Bool) : Dict K (List V) :=
  match dict.get? key with
  | none => dict
  | some values =>
      let kept := values.filter keep
      if kept.isEmpty then dict.erase key else dict.set key kept

theorem getD_append (dict : Dict K (List V)) (key other : K) (value : V) :
    (dict.append key value).getD other [] =
      if other = key then dict.getD key [] ++ [value] else dict.getD other [] :=
  getD_set ..

/-- A group is what a filter by its key gives; there is no empty group. -/
theorem get?_group (key : V → K) (items : List V) (k : K) :
    (group key items).get? k =
      if items.filter (fun item => key item = k) = [] then none
      else some (items.filter fun item => key item = k) := by
  induction items using List.reverseRecOn with
  | nil => rfl
  | append_singleton items item inductionHypothesis =>
      have appended : group key (items ++ [item]) = (group key items).append (key item) item := by
        simp [group]
      rw [appended, append, get?_set, getD, List.filter_append, List.filter_singleton]
      by_cases same : k = key item
      · subst same
        rw [inductionHypothesis]
        by_cases empty : items.filter (fun other => key other = key item) = [] <;> simp [empty]
      · simp [same, Ne.symm same, inductionHypothesis]

theorem mem_entries_group {key : V → K} {items : List V} {entry : K × List V} :
    entry ∈ (group key items).entries ↔
      entry.2 ≠ [] ∧ entry.2 = items.filter fun item => key item = entry.1 := by
  obtain ⟨k, values⟩ := entry
  rw [← get?_eq_some_iff, get?_group]
  split
  · rename_i empty
    simp [empty]
  · rename_i nonempty
    rw [Option.some.injEq]
    constructor
    · rintro rfl
      exact ⟨nonempty, rfl⟩
    · exact fun ⟨_, same⟩ => same.symm

theorem getD_group (key : V → K) (items : List V) (k : K) :
    (group key items).getD k [] = items.filter fun item => key item = k := by
  rw [getD, get?_group]
  split
  · rename_i empty
    exact empty.symm
  · rfl

theorem get?_filterKey_ne {dict : Dict K (List V)} {key other : K} (keep : V → Bool)
    (different : other ≠ key) : (dict.filterKey key keep).get? other = dict.get? other := by
  unfold filterKey
  cases dict.get? key with
  | none => rfl
  | some values =>
      dsimp only
      split
      · exact get?_erase_ne _ different
      · exact get?_set_ne _ _ different

theorem getD_filterKey_self (dict : Dict K (List V)) (key : K) (keep : V → Bool) :
    (dict.filterKey key keep).getD key [] = (dict.getD key []).filter keep := by
  unfold filterKey getD
  cases found : dict.get? key with
  | none => simp [found]
  | some values =>
      dsimp only
      split
      · rename_i none
        simpa using (List.isEmpty_iff.mp none).symm
      · simp

theorem get?_filterKey_ne_nil {dict : Dict K (List V)} {key : K} {keep : V → Bool}
    (nonempty : ∀ other, dict.get? other ≠ some []) (other : K) :
    (dict.filterKey key keep).get? other ≠ some [] := by
  by_cases same : other = key
  · subst same
    unfold filterKey
    cases found : dict.get? other with
    | none => simp [found]
    | some values =>
        dsimp only
        split
        · simp
        · rename_i some
          simpa using fun none => some (List.isEmpty_iff.mpr none)
  · rw [get?_filterKey_ne keep same]
    exact nonempty other

/-- Filter the lists of several keys. -/
def filterKeys (dict : Dict K (List V)) (keys : List K) (keep : V → Bool) : Dict K (List V) :=
  keys.foldl (fun dict key => dict.filterKey key keep) dict

theorem getD_filterKeys (dict : Dict K (List V)) (keys : List K) (keep : V → Bool) (key : K) :
    (dict.filterKeys keys keep).getD key [] =
      if key ∈ keys then (dict.getD key []).filter keep else dict.getD key [] := by
  induction keys generalizing dict with
  | nil => rfl
  | cons head tail inductionHypothesis =>
      rw [filterKeys, List.foldl_cons]
      have rest := inductionHypothesis (dict.filterKey head keep)
      rw [filterKeys] at rest
      rw [rest]
      by_cases same : key = head
      · subst same
        simp [getD_filterKey_self, List.filter_filter]
      · have headSame : (dict.filterKey head keep).getD key [] = dict.getD key [] := by
          unfold getD
          rw [get?_filterKey_ne keep same]
        simp [headSame, same]

theorem get?_filterKeys_ne_nil {dict : Dict K (List V)} {keys : List K} {keep : V → Bool}
    (nonempty : ∀ other, dict.get? other ≠ some []) (other : K) :
    (dict.filterKeys keys keep).get? other ≠ some [] := by
  induction keys generalizing dict with
  | nil => exact nonempty other
  | cons head tail inductionHypothesis =>
      exact inductionHypothesis (get?_filterKey_ne_nil nonempty)

end Dict

/-- The dictionary lists under each key exactly the members with that key. -/
structure Indexes (dict : Dict K (List V)) (Member : V → Prop) (key : V → K) : Prop where
  nodup : ∀ k, (dict.getD k []).Nodup
  mem_iff : ∀ k item, item ∈ dict.getD k [] ↔ Member item ∧ key item = k
  nonempty : ∀ k, dict.get? k ≠ some []

namespace Indexes

variable {dict : Dict K (List V)} {Member : V → Prop} {key : V → K}

theorem empty (none : ∀ item, ¬ Member item) : Indexes (Dict.empty : Dict K (List V)) Member key where
  nodup _ := List.nodup_nil
  mem_iff _ item := by simp [none item]
  nonempty _ := nofun

/-- The same members with the same keys. -/
theorem congr (indexes : Indexes dict Member key) {Other : V → Prop} {otherKey : V → K}
    (members : ∀ item, Other item ↔ Member item)
    (keys : ∀ item, Member item → otherKey item = key item) : Indexes dict Other otherKey where
  nodup := indexes.nodup
  mem_iff k item := by
    rw [indexes.mem_iff, members]
    constructor
    · rintro ⟨member, same⟩
      exact ⟨member, (keys item member).trans same⟩
    · rintro ⟨member, same⟩
      exact ⟨member, (keys item member).symm.trans same⟩
  nonempty := indexes.nonempty

/-- A key is listed exactly when a member has it. -/
theorem mem_keys_iff (indexes : Indexes dict Member key) {k : K} :
    k ∈ dict.keys ↔ ∃ item, Member item ∧ key item = k := by
  simp only [← indexes.mem_iff]
  rw [Dict.mem_keys_iff]
  unfold Dict.getD
  constructor
  · rintro ⟨values, found⟩
    have some : values ≠ [] := fun none => indexes.nonempty k (none ▸ found)
    obtain ⟨item, member⟩ := List.exists_mem_of_ne_nil values some
    exact ⟨item, by simpa [found] using member⟩
  · rintro ⟨item, member⟩
    cases found : dict.get? k with
    | none => simp [found] at member
    | some values => exact ⟨values, rfl⟩

/-- Appending a new item under its key. -/
theorem append (indexes : Indexes dict Member key) {item : V} (new : ¬ Member item) :
    Indexes (dict.append (key item) item) (fun other => other = item ∨ Member other) key where
  nodup k := by
    rw [Dict.getD_append]
    split
    · rw [List.nodup_append']
      refine ⟨indexes.nodup _, List.nodup_singleton _, ?_⟩
      intro other member isItem
      rw [List.mem_singleton.mp isItem] at member
      exact new ((indexes.mem_iff _ _).mp member).1
    · exact indexes.nodup k
  mem_iff k other := by
    rw [Dict.getD_append]
    split
    · rename_i same
      rw [List.mem_append, indexes.mem_iff, List.mem_singleton, ← same]
      constructor
      · rintro (⟨member, sameKey⟩ | rfl)
        · exact ⟨Or.inr member, sameKey⟩
        · exact ⟨Or.inl rfl, same.symm⟩
      · rintro ⟨rfl | member, sameKey⟩
        · exact Or.inr rfl
        · exact Or.inl ⟨member, sameKey⟩
    · rename_i different
      rw [indexes.mem_iff]
      constructor
      · rintro ⟨member, sameKey⟩
        exact ⟨Or.inr member, sameKey⟩
      · rintro ⟨rfl | member, sameKey⟩
        · exact absurd sameKey.symm different
        · exact ⟨member, sameKey⟩
  nonempty k := by
    unfold Dict.append
    rw [Dict.get?_set]
    split
    · simp
    · exact indexes.nonempty k

/-- Filtering the lists of all the keys that lose an item. -/
theorem filterKeys (indexes : Indexes dict Member key) (keys : List K) (keep : V → Bool)
    (covered : ∀ item, Member item → keep item = false → key item ∈ keys) :
    Indexes (dict.filterKeys keys keep) (fun item => Member item ∧ keep item = true) key where
  nodup k := by
    rw [Dict.getD_filterKeys]
    split
    · exact (indexes.nodup k).filter _
    · exact indexes.nodup k
  mem_iff k item := by
    rw [Dict.getD_filterKeys]
    split
    · rw [List.mem_filter, indexes.mem_iff]
      tauto
    · rename_i notListed
      rw [indexes.mem_iff]
      constructor
      · rintro ⟨member, rfl⟩
        refine ⟨⟨member, ?_⟩, rfl⟩
        by_contra dropped
        exact notListed (covered item member (by simpa using dropped))
      · rintro ⟨⟨member, _⟩, same⟩
        exact ⟨member, same⟩
  nonempty := Dict.get?_filterKeys_ne_nil indexes.nonempty

end Indexes

end Zulip
