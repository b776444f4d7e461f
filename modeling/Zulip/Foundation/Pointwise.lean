import Zulip.Foundation.Dict

/-!
# Folds that change one key at a time

A state that is observed key by key, and steps of which each changes what is observed at one
key. Folding such steps changes every key independently of the others.
-/

namespace Zulip

universe u v w x

variable {State : Type u} {Item : Type v} {Key : Type w} {Slot : Type x}

/-- Every step has its effect at the key of its item, and none at other keys. -/
structure Pointwise (view : State → Key → Slot) (step : State → Item → State)
    (key : Item → Key) (effect : Item → Slot → Slot) : Prop where
  self : ∀ state item, view (step state item) (key item) = effect item (view state (key item))
  other : ∀ state item k, k ≠ key item → view (step state item) k = view state k

/-- One item has an effect on what is observed, and the others have none. -/
theorem foldl_of_others {Item State Slot : Type*} {view : State → Slot}
    {step : State → Item → State} {effect : Slot → Slot} {items : List Item} {item : Item}
    (distinct : items.Nodup) (member : item ∈ items)
    (self : ∀ state, view (step state item) = effect (view state))
    (others : ∀ other ∈ items, other ≠ item → ∀ state, view (step state other) = view state)
    (state : State) : view (items.foldl step state) = effect (view state) := by
  have kept : ∀ rest : List Item, rest ⊆ items → item ∉ rest → ∀ state,
      view (rest.foldl step state) = view state := by
    intro rest sub absent
    induction rest with
    | nil => exact fun _ => rfl
    | cons head tail inductionHypothesis =>
        intro state
        have different : head ≠ item := fun same => absent (same ▸ List.mem_cons_self)
        rw [List.foldl_cons, inductionHypothesis (fun _ isTail => sub (List.mem_cons_of_mem _ isTail))
          (fun isTail => absent (List.mem_cons_of_mem _ isTail))]
        exact others head (sub List.mem_cons_self) different state
  obtain ⟨before, after, rfl⟩ := List.append_of_mem member
  have notBefore : item ∉ before := fun isBefore =>
    (List.nodup_append'.mp distinct).2.2 isBefore List.mem_cons_self
  have notAfter : item ∉ after := (List.nodup_cons.mp (List.nodup_append'.mp distinct).2.1).1
  rw [List.foldl_append, List.foldl_cons, kept after (fun _ isAfter => by simp [isAfter]) notAfter,
    self, kept before (fun _ isBefore => by simp [isBefore]) notBefore]

namespace Pointwise

variable {view : State → Key → Slot} {step : State → Item → State} {key : Item → Key}
  {effect : Item → Slot → Slot} {items : List Item} {state : State}

/-- A key of no item keeps its slot. -/
theorem foldl_absent (pointwise : Pointwise view step key effect) {k : Key}
    (absent : ∀ item ∈ items, key item ≠ k) :
    view (items.foldl step state) k = view state k := by
  induction items generalizing state with
  | nil => rfl
  | cons head tail inductionHypothesis =>
      rw [List.foldl_cons,
        inductionHypothesis fun item member => absent item (List.mem_cons_of_mem _ member)]
      exact pointwise.other state head k (absent head List.mem_cons_self).symm

/-- The key of one item only sees the effect of that item. -/
theorem foldl_member (pointwise : Pointwise view step key effect)
    (distinct : (items.map key).Nodup) {item : Item} (member : item ∈ items) :
    view (items.foldl step state) (key item) = effect item (view state (key item)) := by
  induction items generalizing state with
  | nil => simp at member
  | cons head tail inductionHypothesis =>
      rw [List.map_cons, List.nodup_cons] at distinct
      rw [List.foldl_cons]
      rcases List.mem_cons.mp member with rfl | later
      · rw [pointwise.foldl_absent fun other otherMember same => distinct.1 ?_]
        · exact pointwise.self state item
        · rw [← same]
          exact List.mem_map_of_mem otherMember
      · rw [inductionHypothesis distinct.2 later]
        congr 1
        refine pointwise.other state head _ fun same => distinct.1 ?_
        rw [← same]
        exact List.mem_map_of_mem later

/-- Items of different keys may be taken in any order. -/
theorem foldl_perm (pointwise : Pointwise view step key effect) {order : List Item}
    (distinct : (items.map key).Nodup) (perm : order.Perm items) (k : Key) :
    view (order.foldl step state) k = view (items.foldl step state) k := by
  by_cases present : ∃ item ∈ items, key item = k
  · obtain ⟨item, member, rfl⟩ := present
    rw [pointwise.foldl_member distinct member]
    exact pointwise.foldl_member ((perm.map key).nodup_iff.mpr distinct)
      (perm.mem_iff.mpr member)
  · rw [pointwise.foldl_absent fun item member same => present ⟨item, member, same⟩]
    exact pointwise.foldl_absent fun item member same =>
      present ⟨item, perm.mem_iff.mp member, same⟩

/-- An effect that can be repeated, on keys that may be repeated. -/
theorem foldl_repeated {step : State → Key → State} {effect : Key → Slot → Slot}
    (pointwise : Pointwise view step id effect) {keys : List Key}
    (repeated : ∀ k slot, effect k (effect k slot) = effect k slot) {k : Key} (member : k ∈ keys) :
    view (keys.foldl step state) k = effect k (view state k) := by
  induction keys generalizing state with
  | nil => simp at member
  | cons head tail inductionHypothesis =>
      rw [List.foldl_cons]
      by_cases later : k ∈ tail
      · rw [inductionHypothesis later]
        by_cases same : k = head
        · subst same
          have atHead : view (step state k) k = effect k (view state k) := pointwise.self state k
          rw [atHead, repeated]
        · rw [pointwise.other state head k same]
      · have isHead : k = head := (List.mem_cons.mp member).resolve_right later
        subst isHead
        rw [pointwise.foldl_absent fun other otherMember (same : other = k) =>
          later (same ▸ otherMember)]
        exact pointwise.self state k

/-- Folding over the entries of a dictionary. -/
theorem foldl_entries {Value : Type v} [DecidableEq Key] {step : State → Key × Value → State}
    {effect : Key × Value → Slot → Slot} (pointwise : Pointwise view step Prod.fst effect)
    (dict : Dict Key Value) (k : Key) :
    view (dict.entries.foldl step state) k =
      match dict.get? k with
      | some value => effect (k, value) (view state k)
      | none => view state k := by
  cases found : dict.get? k with
  | some value =>
      exact pointwise.foldl_member dict.nodupKeys (Dict.get?_eq_some_iff.mp found)
  | none =>
      refine pointwise.foldl_absent fun entry member same => ?_
      rw [Dict.get?_eq_none_iff] at found
      exact found (same ▸ List.mem_map_of_mem member)

end Pointwise

/-- Setting a key of a dictionary changes its lookup only. -/
theorem Dict.set_pointwise {K : Type w} {V : Type x} [DecidableEq K] {Value : Type v}
    (value : K × Value → V) :
    Pointwise (fun dict k => Dict.get? dict k)
      (fun (dict : Dict K V) entry => dict.set entry.1 (value entry)) Prod.fst
      (fun entry _ => some (value entry)) :=
  ⟨fun dict entry => Dict.get?_set_self dict entry.1 _,
    fun dict _ _ different => Dict.get?_set_ne dict _ different⟩

namespace Dict

variable {K : Type w} {V : Type x} [DecidableEq K] {dict : Dict K V}

/-- A dictionary from pairs of different keys holds these pairs. -/
theorem get?_ofList {pairs : List (K × V)} (distinct : (pairs.map Prod.fst).Nodup) {k : K}
    {value : V} : (ofList pairs).get? k = some value ↔ (k, value) ∈ pairs := by
  have pointwise := @Dict.set_pointwise K V _ V Prod.snd
  unfold ofList
  constructor
  · intro found
    by_cases present : ∃ pair ∈ pairs, pair.1 = k
    · obtain ⟨pair, member, rfl⟩ := present
      have isSet := @Pointwise.foldl_member _ _ _ _ _ _ _ _ _ empty pointwise distinct _ member
      rw [isSet, Option.some.injEq] at found
      rw [← found]
      exact member
    · have isUnset := @Pointwise.foldl_absent _ _ _ _ _ _ _ _ _ empty pointwise k
        fun pair member same => present ⟨pair, member, same⟩
      rw [isUnset] at found
      simp at found
  · intro member
    exact @Pointwise.foldl_member _ _ _ _ _ _ _ _ _ empty pointwise distinct _ member

/-- Updating the values of several keys by their own value. -/
theorem get?_foldl_update {update : Option V → V}
    (repeated : ∀ value, update (some (update value)) = update value) (keys : List K) (k : K) :
    (keys.foldl (fun dict k => dict.set k (update (dict.get? k))) dict).get? k =
      if k ∈ keys then some (update (dict.get? k)) else dict.get? k := by
  have pointwise : Pointwise (fun (dict : Dict K V) k => dict.get? k)
      (fun dict k => dict.set k (update (dict.get? k))) id
      (fun _ value => some (update value)) :=
    ⟨fun dict k => get?_set_self dict k _, fun dict _ _ different => get?_set_ne dict _ different⟩
  split
  · exact pointwise.foldl_repeated (fun _ value => congrArg some (repeated value)) ‹_›
  · rename_i absent
    exact pointwise.foldl_absent fun other member (same : other = k) => absent (same ▸ member)

/-- Erasing several keys. -/
theorem get?_foldl_erase (keys : List K) (k : K) :
    (keys.foldl erase dict).get? k = if k ∈ keys then none else dict.get? k := by
  have pointwise : Pointwise (fun (dict : Dict K V) k => dict.get? k) erase id (fun _ _ => none) :=
    ⟨fun dict k => get?_erase_self dict k, fun dict _ _ different => get?_erase_ne dict different⟩
  split
  · exact pointwise.foldl_repeated (fun _ _ => rfl) ‹_›
  · rename_i absent
    exact pointwise.foldl_absent fun other member (same : other = k) => absent (same ▸ member)

/-- Set the value under a key, or erase the key. -/
def assign (dict : Dict K V) (key : K) : Option V → Dict K V
  | some value => dict.set key value
  | none => dict.erase key

theorem get?_assign (key other : K) (value : Option V) :
    (dict.assign key value).get? other = if other = key then value else dict.get? other := by
  cases value with
  | some value => exact get?_set dict key other value
  | none => exact get?_erase dict key other

/-- Assigning several keys. -/
theorem get?_foldl_assign (value : K → Option V) (keys : List K) (k : K) :
    (keys.foldl (fun dict k => dict.assign k (value k)) dict).get? k =
      if k ∈ keys then value k else dict.get? k := by
  have pointwise : Pointwise (fun (dict : Dict K V) k => dict.get? k)
      (fun dict k => dict.assign k (value k)) id (fun k _ => value k) := by
    constructor
    · intro dict k
      exact (get?_assign k k (value k)).trans (if_pos rfl)
    · intro dict k other different
      exact (get?_assign k other (value k)).trans (if_neg different)
  split
  · exact pointwise.foldl_repeated (fun _ _ => rfl) ‹_›
  · rename_i absent
    exact pointwise.foldl_absent fun other member (same : other = k) => absent (same ▸ member)

end Dict

end Zulip
