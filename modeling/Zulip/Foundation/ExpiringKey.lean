import Mathlib.Algebra.Order.Ring.Rat
import Mathlib.Data.Finset.Card
import Mathlib.Data.Rat.Floor
import Mathlib.Tactic.Linarith

/-!
# Keys that expire

Lists and sorted sets of a key-value store whose keys have an expiry time. A command at some time
sees a key only up to its expiry time; a command that writes to a key that has expired starts from
nothing. Keys without elements do not exist.
-/

namespace Zulip

/-- A key with its value and the time after which it is gone. -/
structure ExpiringKey (Value : Type) where
  value : Value
  expireAt : Option ℚ
deriving DecidableEq

namespace ExpiringKey

variable {Value Element : Type}

/-- The time is not after the expiry time of the key. -/
def Live (key : ExpiringKey Value) (now : ℚ) : Prop :=
  ∀ expiry ∈ key.expireAt, now ≤ expiry

instance (key : ExpiringKey Value) (now : ℚ) : Decidable (key.Live now) :=
  inferInstanceAs (Decidable (∀ expiry ∈ key.expireAt, now ≤ expiry))

/-- What a command sees of a key. -/
def visible (key : Option (ExpiringKey Value)) (now : ℚ) : Option (ExpiringKey Value) :=
  key.filter fun key => decide (key.Live now)

theorem visible_some (value : Value) (expiry now : ℚ) :
    visible (some ⟨value, some expiry⟩) now =
      if now ≤ expiry then some ⟨value, some expiry⟩ else none := by
  simp [visible, Live, Option.filter]

/-- Give a key a number of seconds to live; without any left it is deleted. -/
def expire (key : Option (ExpiringKey Value)) (now : ℚ) (seconds : ℤ) :
    Option (ExpiringKey Value) :=
  if seconds ≤ 0 then none
  else (visible key now).map fun key => { key with expireAt := some (now + seconds) }

/-- The seconds that a key has left, rounded; -1 when it stays and -2 when there is none. -/
def ttl (key : Option (ExpiringKey Value)) (now : ℚ) : ℤ :=
  match visible key now with
  | none => -2
  | some ⟨_, none⟩ => -1
  | some ⟨_, some expiry⟩ => ⌊expiry - now + 1 / 2⌋

/-! ## Lists -/

/-- The elements of a list. -/
def elements (key : Option (ExpiringKey (List Element))) (now : ℚ) : List Element :=
  ((visible key now).map value).getD []

/-- A position in a list; negative ones count from the end. -/
def position (length : ℕ) (index : ℤ) : ℤ :=
  if index < 0 then length + index else index

/-- The element at a position. -/
def lindex (key : Option (ExpiringKey (List Element))) (now : ℚ) (index : ℤ) : Option Element :=
  let place := position (elements key now).length index
  if place < 0 then none else (elements key now)[place.toNat]?

/-- The same key with other elements, deleted when it has none. -/
def withElements (key : Option (ExpiringKey (List Element))) (now : ℚ) (list : List Element) :
    Option (ExpiringKey (List Element)) :=
  if list.isEmpty then none else some ⟨list, (visible key now).bind expireAt⟩

/-- Insert an element at the front. -/
def lpush (key : Option (ExpiringKey (List Element))) (now : ℚ) (element : Element) :
    Option (ExpiringKey (List Element)) :=
  withElements key now (element :: elements key now)

/-- Keep the elements between two positions, the second one included. -/
def ltrim (key : Option (ExpiringKey (List Element))) (now : ℚ) (start stop : ℤ) :
    Option (ExpiringKey (List Element)) :=
  let list := elements key now
  let first := max (position list.length start) 0
  let last := position list.length stop
  withElements key now ((list.drop first.toNat).take (last + 1 - first).toNat)

/-! ## Sorted sets whose members are their own scores -/

variable [DecidableEq Element]

/-- The members of a sorted set. -/
def members (key : Option (ExpiringKey (Finset Element))) (now : ℚ) : Finset Element :=
  ((visible key now).map value).getD ∅

/-- The same key with other members, deleted when it has none. -/
def withMembers (key : Option (ExpiringKey (Finset Element))) (now : ℚ) (set : Finset Element) :
    Option (ExpiringKey (Finset Element)) :=
  if set = ∅ then none else some ⟨set, (visible key now).bind expireAt⟩

/-- Add a member. -/
def zadd (key : Option (ExpiringKey (Finset Element))) (now : ℚ) (member : Element) :
    Option (ExpiringKey (Finset Element)) :=
  withMembers key now (insert member (members key now))

/-- Remove a member. -/
def zrem (key : Option (ExpiringKey (Finset Element))) (now : ℚ) (member : Element) :
    Option (ExpiringKey (Finset Element)) :=
  withMembers key now ((members key now).erase member)

/-- How many members have a score between two bounds, these included. -/
def zcount [LE Element] [DecidableLE Element] (key : Option (ExpiringKey (Finset Element)))
    (now : ℚ) (lowest highest : Element) : ℕ :=
  ((members key now).filter fun score => lowest ≤ score ∧ score ≤ highest).card

/-! ## What a command leaves -/

section Visible

omit [DecidableEq Element]

variable {now : ℚ} {list : List Element} {set : Finset Element}

theorem Live.of_le {key : ExpiringKey Value} {earlier later : ℚ} (live : key.Live later)
    (past : earlier ≤ later) : key.Live earlier :=
  fun expiry isExpiry => past.trans (live expiry isExpiry)

/-- A write keeps the expiry time of a key that is there, so the next command sees the value. -/
theorem visible_kept (key : Option (ExpiringKey Value)) {Other : Type} (value : Other) (now : ℚ) :
    visible (some ⟨value, (visible key now).bind expireAt⟩) now =
      some ⟨value, (visible key now).bind expireAt⟩ := by
  have live : ∀ expiry ∈ (visible key now).bind expireAt, now ≤ expiry := by
    intro expiry isExpiry
    obtain ⟨found, isVisible, isExpiry⟩ := Option.bind_eq_some_iff.mp isExpiry
    have meets := (Option.filter_eq_some_iff.mp isVisible).2
    exact of_decide_eq_true meets expiry isExpiry
  exact Option.filter_eq_some_iff.mpr ⟨rfl, decide_eq_true live⟩

/-- A list that is still there at some time was the same list before. -/
theorem elements_eq_of_ne_nil {key : Option (ExpiringKey (List Element))} {earlier later : ℚ}
    (past : earlier ≤ later) (notEmpty : elements key later ≠ []) :
    elements key earlier = elements key later := by
  cases isVisible : visible key later with
  | none => exact absurd (by rw [elements, isVisible]; rfl) notEmpty
  | some found =>
      obtain ⟨rfl, live⟩ := Option.filter_eq_some_iff.mp isVisible
      have before : visible (some found) earlier = some found :=
        Option.filter_eq_some_iff.mpr
          ⟨rfl, decide_eq_true ((of_decide_eq_true live : found.Live later).of_le past)⟩
      rw [elements, elements, isVisible, before]

theorem elements_ne_nil_of_lindex {key : Option (ExpiringKey (List Element))} {index : ℤ}
    {element : Element} (found : lindex key now index = some element) :
    elements key now ≠ [] := by
  intro isEmpty
  simp [lindex, isEmpty] at found

theorem lindex_natCast (key : Option (ExpiringKey (List Element))) (now : ℚ) (index : ℕ) :
    lindex key now index = (elements key now)[index]? := by
  have notNegative : ¬ (index : ℤ) < 0 := by omega
  simp only [lindex, position, if_neg notNegative, Int.toNat_natCast]

/-- The elements of a key that a command has written. -/
@[simp] theorem elements_withElements (key : Option (ExpiringKey (List Element))) :
    elements (withElements key now list) now = list := by
  cases list with
  | nil => rfl
  | cons element rest =>
      rw [withElements, if_neg (by simp), elements, visible_kept]
      rfl

/-- The members of a key that a command has written. -/
@[simp] theorem members_withMembers [DecidableEq Element]
    (key : Option (ExpiringKey (Finset Element))) :
    members (withMembers key now set) now = set := by
  by_cases isEmpty : set = ∅
  · rw [withMembers, if_pos isEmpty, isEmpty]
    rfl
  · rw [withMembers, if_neg isEmpty, members, visible_kept]
    rfl

/-- Trimming a list to its first elements. -/
theorem elements_ltrim_take (key : Option (ExpiringKey (List Element))) (count : ℕ) :
    elements (ltrim key now 0 count) now = (elements key now).take (count + 1) := by
  have notNegative : ¬ (count : ℤ) < 0 := by omega
  simp [ltrim, position, notNegative]

/-- A key that gets seconds to live has the value that it had. -/
theorem expire_of_visible {key : Option (ExpiringKey Value)} {found : ExpiringKey Value}
    {seconds : ℤ} (isVisible : visible key now = some found) (positive : 0 < seconds) :
    expire key now seconds = some { found with expireAt := some (now + seconds) } := by
  rw [expire, if_neg (by omega), isVisible]
  rfl

theorem visible_expire {key : Option (ExpiringKey Value)} {seconds : ℤ} (positive : 0 < seconds) :
    visible (expire key now seconds) now =
      (visible key now).map fun key => { key with expireAt := some (now + seconds) } := by
  rw [expire, if_neg (by omega)]
  cases visible key now with
  | none => rfl
  | some found =>
      have after : now ≤ now + seconds := by
        have : (0 : ℚ) ≤ seconds := by exact_mod_cast positive.le
        linarith
      rw [Option.map_some, visible_some, if_pos after]

theorem members_expire {key : Option (ExpiringKey (Finset Element))} {seconds : ℤ}
    (positive : 0 < seconds) : members (expire key now seconds) now = members key now := by
  rw [members, visible_expire positive, Option.map_map]
  rfl

theorem expire_of_not_pos {key : Option (ExpiringKey Value)} {seconds : ℤ}
    (notPositive : seconds ≤ 0) : expire key now seconds = none :=
  if_pos notPositive

/-- The elements of a list that gets seconds to live. -/
theorem expire_withElements {key : Option (ExpiringKey (List Element))} {seconds : ℤ}
    (notEmpty : list ≠ []) (positive : 0 < seconds) :
    expire (withElements key now list) now seconds = some ⟨list, some (now + seconds)⟩ := by
  rw [withElements, if_neg (by simpa using notEmpty)]
  exact expire_of_visible (visible_kept key list now) positive

/-- The members of a sorted set that gets seconds to live. -/
theorem expire_withMembers [DecidableEq Element] {key : Option (ExpiringKey (Finset Element))}
    {seconds : ℤ} (notEmpty : set ≠ ∅) (positive : 0 < seconds) :
    expire (withMembers key now set) now seconds = some ⟨set, some (now + seconds)⟩ := by
  rw [withMembers, if_neg notEmpty]
  exact expire_of_visible (visible_kept key set now) positive

end Visible

end ExpiringKey

end Zulip
