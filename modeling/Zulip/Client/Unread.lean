import Mathlib.Data.Finset.Erase
import Zulip.Foundation.Buckets
import Zulip.Foundation.Dict

/-!
# Unread messages on the client

The collections of `unread.ts`: the ids of unread messages in buckets for conversations and topics,
which of them mention the user, and a cache of the mentions by topic.
-/

namespace Zulip.Client

/-! ## Maps that ignore case -/

/-- `FoldDict`, with the key as it was set last. -/
structure FoldDict (V : Type) where
  items : Dict String (String × V)

namespace FoldDict

variable {V : Type} (toLowerCase : String → String)

/-- `new FoldDict()`. -/
def empty : FoldDict V := ⟨Dict.empty⟩

/-- The value under a key that is folded already. -/
def folded (dict : FoldDict V) (key : String) : Option V := (dict.items.get? key).map Prod.snd

/-- `get`. -/
def get? (dict : FoldDict V) (key : String) : Option V := dict.folded (toLowerCase key)

/-- `set`. -/
def set (dict : FoldDict V) (key : String) (value : V) : FoldDict V :=
  ⟨dict.items.set (toLowerCase key) (key, value)⟩

/-- The value under a key is changed in place. -/
def mutate (dict : FoldDict V) (key : String) (change : V → V) : FoldDict V :=
  ⟨dict.items.modify (toLowerCase key) fun item => (item.1, change item.2)⟩

@[simp] theorem folded_empty (key : String) : (empty : FoldDict V).folded key = none := rfl

theorem folded_set (dict : FoldDict V) (key other : String) (value : V) :
    (dict.set toLowerCase key value).folded other =
      if other = toLowerCase key then some value else dict.folded other := by
  unfold folded set
  rw [Dict.get?_set]
  split <;> rfl

theorem folded_mutate (dict : FoldDict V) (key other : String) (change : V → V) :
    (dict.mutate toLowerCase key change).folded other =
      if other = toLowerCase key then (dict.folded other).map change else dict.folded other := by
  unfold folded mutate
  rw [Dict.get?_modify]
  split
  · rename_i same
    rw [same, Option.map_map, Option.map_map]
    rfl
  · rfl

end FoldDict

/-- `get_topic_key`. -/
def getTopicKey (toLowerCase : String → String) (streamId : Nat) (topic : String) : String :=
  toString streamId ++ ":" ++ toLowerCase topic

variable {Id : Type} [DecidableEq Id]

/-! ## The counters -/

/-- `UnreadDirectMessageCounter`. -/
structure DirectMessageCounter (Id : Type) where
  bucketer : Dict String (Finset Id)
  reverseLookup : Dict Id String

namespace DirectMessageCounter

/-- `add`. -/
def add (counter : DirectMessageCounter Id) (messageId : Id) (userIdsString : String) :
    DirectMessageCounter Id :=
  if userIdsString ≠ "" then
    { bucketer := counter.bucketer.set userIdsString
        (insert messageId (counter.bucketer.getD userIdsString ∅))
      reverseLookup := counter.reverseLookup.set messageId userIdsString }
  else counter

/-- `delete`. -/
def delete (counter : DirectMessageCounter Id) (messageId : Id) : DirectMessageCounter Id :=
  match counter.reverseLookup.get? messageId with
  | none => counter
  | some userIdsString =>
      { bucketer := counter.bucketer.modify userIdsString fun bucket => bucket.erase messageId
        reverseLookup := counter.reverseLookup.erase messageId }

/-- The ids under a key. -/
def members (counter : DirectMessageCounter Id) (userIdsString : String) : Finset Id :=
  counter.bucketer.getD userIdsString ∅

/-- The buckets hold what the reverse lookup says. -/
def Indexed (counter : DirectMessageCounter Id) : Prop :=
  Zulip.Indexed id counter.members counter.reverseLookup.get?

theorem Indexed.add {counter : DirectMessageCounter Id} (indexed : counter.Indexed) {messageId : Id}
    {userIdsString : String} (named : userIdsString ≠ "")
    (absent : counter.reverseLookup.get? messageId = none) :
    (counter.add messageId userIdsString).Indexed := by
  unfold DirectMessageCounter.add
  rw [if_pos named]
  refine Zulip.Indexed.add indexed userIdsString absent (fun other key => ?_)
    (Dict.get?_set_self ..) fun other differs => Dict.get?_set_ne _ _ differs
  simp only [members, Dict.getD_set]
  split
  · rename_i same
    rw [same, Finset.mem_insert]
    tauto
  · rename_i differs
    exact (or_iff_left fun added => differs added.2).symm

theorem get?_add {counter : DirectMessageCounter Id} (messageId other : Id)
    (userIdsString : String) :
    (counter.add messageId userIdsString).reverseLookup.get? other =
      if other = messageId ∧ userIdsString ≠ "" then some userIdsString
      else counter.reverseLookup.get? other := by
  unfold DirectMessageCounter.add
  by_cases named : userIdsString ≠ ""
  · rw [if_pos named, Dict.get?_set]
    simp [named]
  · rw [if_neg named, if_neg fun both => named both.2]

theorem get?_delete {counter : DirectMessageCounter Id} (messageId other : Id) :
    (counter.delete messageId).reverseLookup.get? other =
      if other = messageId then none else counter.reverseLookup.get? other := by
  unfold DirectMessageCounter.delete
  split
  · rename_i absent
    by_cases same : other = messageId
    · rw [if_pos same, same, absent]
    · rw [if_neg same]
  · exact Dict.get?_erase ..

theorem Indexed.delete {counter : DirectMessageCounter Id} (indexed : counter.Indexed)
    (messageId : Id) : (counter.delete messageId).Indexed := by
  refine Zulip.Indexed.delete indexed messageId (fun other key => ?_)
    (by rw [get?_delete, if_pos rfl]) fun other differs => by rw [get?_delete, if_neg differs]
  cases isPlace : counter.reverseLookup.get? messageId with
  | none =>
      rw [DirectMessageCounter.delete, isPlace, iff_self_and]
      rintro isMember rfl
      have found := (indexed other key).mp isMember
      rw [isPlace] at found
      cases found
  | some userIdsString =>
      rw [DirectMessageCounter.delete, isPlace]
      simp only [members, Dict.getD, Dict.get?_modify]
      by_cases same : key = userIdsString
      · subst same
        rw [if_pos rfl]
        cases counter.bucketer.get? key with
        | none => simp
        | some bucket => simp [and_comm]
      · rw [if_neg same, iff_self_and]
        rintro isMember rfl
        have found := (indexed other key).mp isMember
        rw [isPlace] at found
        exact same (Option.some.inj found).symm

end DirectMessageCounter

/-- `UnreadTopicCounter`. -/
structure TopicCounter (Id : Type) where
  bucketer : Dict Nat (FoldDict (Finset Id))
  reverseLookup : Dict Id (Nat × String)

namespace TopicCounter

variable (toLowerCase : String → String)

/-- `add`. -/
def add (counter : TopicCounter Id) (messageId : Id) (streamId : Nat) (topic : String) :
    TopicCounter Id :=
  let perStreamBucketer := counter.bucketer.getD streamId FoldDict.empty
  let perStreamBucketer :=
    match perStreamBucketer.get? toLowerCase topic with
    | none => perStreamBucketer.set toLowerCase topic ∅
    | some _ => perStreamBucketer
  { bucketer := counter.bucketer.set streamId
      (perStreamBucketer.mutate toLowerCase topic fun bucket => insert messageId bucket)
    reverseLookup := counter.reverseLookup.set messageId (streamId, topic) }

/-- `delete`. -/
def delete (counter : TopicCounter Id) (messageId : Id) : TopicCounter Id :=
  match counter.reverseLookup.get? messageId with
  | none => counter
  | some streamTopic =>
      { bucketer := counter.bucketer.modify streamTopic.1 fun perStreamBucketer =>
          perStreamBucketer.mutate toLowerCase streamTopic.2 fun bucket => bucket.erase messageId
        reverseLookup := counter.reverseLookup.erase messageId }

/-- The bucket of a place: topics are folded. -/
def bucketOf (streamTopic : Nat × String) : Nat × String :=
  (streamTopic.1, toLowerCase streamTopic.2)

/-- The ids of a stream and a folded topic. -/
def members (counter : TopicCounter Id) (bucket : Nat × String) : Finset Id :=
  ((counter.bucketer.getD bucket.1 FoldDict.empty).folded bucket.2).getD ∅

/-- The buckets hold what the reverse lookup says. -/
def Indexed (counter : TopicCounter Id) : Prop :=
  Zulip.Indexed (bucketOf toLowerCase) counter.members counter.reverseLookup.get?

variable {toLowerCase} {counter : TopicCounter Id}

theorem mem_add {messageId other : Id} {streamId : Nat} {topic : String} {bucket : Nat × String} :
    other ∈ (counter.add toLowerCase messageId streamId topic).members bucket ↔
      other ∈ counter.members bucket ∨
        (other = messageId ∧ bucket = bucketOf toLowerCase (streamId, topic)) := by
  obtain ⟨stream, folded⟩ := bucket
  simp only [members, add, Dict.getD_set, bucketOf, Prod.mk.injEq]
  by_cases sameStream : stream = streamId
  · subst sameStream
    rw [if_pos rfl, FoldDict.folded_mutate]
    by_cases sameTopic : folded = toLowerCase topic
    · subst sameTopic
      rw [if_pos rfl]
      cases isBucket : (counter.bucketer.getD stream FoldDict.empty).folded (toLowerCase topic) with
      | none => simp [FoldDict.get?, isBucket, FoldDict.folded_set]
      | some bucket => simp [FoldDict.get?, isBucket, or_comm]
    · rw [if_neg sameTopic]
      cases isBucket : (counter.bucketer.getD stream FoldDict.empty).folded (toLowerCase topic) with
      | none => simp [FoldDict.get?, isBucket, FoldDict.folded_set, sameTopic]
      | some bucket => simp [FoldDict.get?, isBucket, sameTopic]
  · simp [sameStream]

theorem mem_delete {messageId other : Id} {bucket streamTopic : Nat × String}
    (isPlace : counter.reverseLookup.get? messageId = some streamTopic) :
    other ∈ (counter.delete toLowerCase messageId).members bucket ↔
      other ∈ counter.members bucket ∧
        ¬(other = messageId ∧ bucket = bucketOf toLowerCase streamTopic) := by
  obtain ⟨stream, folded⟩ := bucket
  obtain ⟨streamId, topic⟩ := streamTopic
  rw [delete, isPlace]
  simp only [members, Dict.getD, Dict.get?_modify, bucketOf, Prod.mk.injEq]
  by_cases sameStream : stream = streamId
  · subst sameStream
    rw [if_pos rfl]
    cases counter.bucketer.get? stream with
    | none => simp
    | some perStream =>
        simp only [Option.map_some, Option.getD_some, FoldDict.folded_mutate]
        by_cases sameTopic : folded = toLowerCase topic
        · subst sameTopic
          rw [if_pos rfl]
          cases perStream.folded (toLowerCase topic) with
          | none => simp
          | some bucket => simp [and_comm]
        · simp [sameTopic]
  · simp [sameStream]

theorem get?_delete (messageId other : Id) :
    (counter.delete toLowerCase messageId).reverseLookup.get? other =
      if other = messageId then none else counter.reverseLookup.get? other := by
  unfold delete
  split
  · rename_i absent
    by_cases same : other = messageId
    · rw [if_pos same, same, absent]
    · rw [if_neg same]
  · exact Dict.get?_erase ..

theorem get?_add (messageId other : Id) (streamId : Nat) (topic : String) :
    (counter.add toLowerCase messageId streamId topic).reverseLookup.get? other =
      if other = messageId then some (streamId, topic) else counter.reverseLookup.get? other :=
  Dict.get?_set ..

theorem Indexed.add (indexed : counter.Indexed toLowerCase) {messageId : Id}
    (absent : counter.reverseLookup.get? messageId = none) (streamId : Nat) (topic : String) :
    (counter.add toLowerCase messageId streamId topic).Indexed toLowerCase :=
  Zulip.Indexed.add indexed (streamId, topic) absent (fun _ _ => mem_add) (by rw [get?_add, if_pos rfl])
    fun other differs => by rw [get?_add, if_neg differs]

theorem Indexed.delete (indexed : counter.Indexed toLowerCase) (messageId : Id) :
    (counter.delete toLowerCase messageId).Indexed toLowerCase := by
  refine Zulip.Indexed.delete indexed messageId (fun other bucket => ?_)
    (by rw [get?_delete, if_pos rfl]) fun other differs => by rw [get?_delete, if_neg differs]
  cases isPlace : counter.reverseLookup.get? messageId with
  | none =>
      rw [TopicCounter.delete, isPlace, iff_self_and]
      rintro isMember rfl
      have found := (indexed other bucket).mp isMember
      rw [isPlace] at found
      cases found
  | some streamTopic =>
      rw [mem_delete isPlace]
      refine and_congr_right fun isMember => not_congr (and_iff_left_of_imp ?_)
      rintro rfl
      have found := (indexed other bucket).mp isMember
      rw [isPlace] at found
      exact (Option.some.inj found).symm

end TopicCounter

end Zulip.Client
