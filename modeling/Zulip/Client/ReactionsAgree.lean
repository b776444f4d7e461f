import Mathlib.Data.List.Perm.Basic
import Mathlib.Tactic.Tauto
import Zulip.Client.Reactions
import Zulip.Foundation.Pointwise

/-!
# Pills that were changed in place

`applyEvents_agrees`: after any reaction events the pills are those that are built from the raw
reactions that remain. Every change ends with `update_vote_text_on_message`, which makes the pills
fresh whatever counts they had; what is left to compare are the users of each pill.
-/

namespace Zulip.Client.Reactions

/-! ## Users in the order of their reactions -/

/-- A user who has not yet reacted is added at the end. -/
def addUser (userIds : List ℕ) (userId : ℕ) : List ℕ :=
  if userIds.contains userId then userIds else userIds ++ [userId]

theorem mem_foldl_addUser {userIds : List ℕ} {userId : ℕ} :
    userId ∈ userIds.foldl addUser [] ↔ userId ∈ userIds := by
  induction userIds using List.reverseRecOn with
  | nil => rfl
  | append_singleton userIds last inductionHypothesis =>
      rw [List.foldl_concat, addUser, List.mem_append, List.mem_singleton]
      split_ifs with present
      · rw [inductionHypothesis]
        refine (or_iff_left_of_imp ?_).symm
        rintro rfl
        exact inductionHypothesis.mp (List.contains_iff_mem.mp present)
      · rw [List.mem_append, List.mem_singleton, inductionHypothesis]

/-- Leaving out users commutes with collecting them. -/
theorem foldl_addUser_filter (keep : ℕ → Bool) (userIds : List ℕ) :
    (userIds.filter keep).foldl addUser [] = (userIds.foldl addUser []).filter keep := by
  induction userIds using List.reverseRecOn with
  | nil => rfl
  | append_singleton userIds last inductionHypothesis =>
      rw [List.filter_append, List.foldl_concat]
      by_cases kept : keep last = true
      · have single : [last].filter keep = [last] := by simp [kept]
        rw [single, List.foldl_concat, inductionHypothesis, addUser, addUser]
        have samePresence : ((userIds.foldl addUser []).filter keep).contains last =
            (userIds.foldl addUser []).contains last := by
          rw [Bool.eq_iff_iff, List.contains_iff_mem, List.contains_iff_mem, List.mem_filter]
          exact and_iff_left kept
        rw [samePresence]
        split_ifs
        · rfl
        · rw [List.filter_append, single]
      · have none : [last].filter keep = [] := by simp [kept]
        rw [none, List.append_nil, inductionHypothesis, addUser]
        split_ifs
        · rfl
        · rw [List.filter_append, none, List.append_nil]

/-- The users who reacted with an emoji, by the raw reactions. -/
def usersOf (reactions : List RawReaction) (localId : String) : List ℕ :=
  ((reactions.filter fun reaction => reaction.localId = localId).map (·.userId)).foldl addUser []

theorem mem_usersOf {reactions : List RawReaction} {localId : String} {userId : ℕ} :
    userId ∈ usersOf reactions localId ↔
      ∃ reaction ∈ reactions, reaction.localId = localId ∧ reaction.userId = userId := by
  unfold usersOf
  rw [mem_foldl_addUser, List.mem_map]
  simp only [List.mem_filter, decide_eq_true_eq, and_assoc]

theorem usersOf_append_singleton (reactions : List RawReaction) (reaction : RawReaction)
    (localId : String) : usersOf (reactions ++ [reaction]) localId =
      if localId = reaction.localId then addUser (usersOf reactions localId) reaction.userId
      else usersOf reactions localId := by
  unfold usersOf
  rw [List.filter_append]
  split_ifs with same
  · have single : ([reaction].filter fun reaction => reaction.localId = localId) = [reaction] := by
      simp [same]
    rw [single, List.map_append, List.map_singleton, List.foldl_concat]
  · have none : ([reaction].filter fun reaction => reaction.localId = localId) = [] := by
      simp [Ne.symm same]
    rw [none, List.append_nil]

theorem isSame_iff {first second : RawReaction} : first.isSame second = true ↔
    second.localId = first.localId ∧ second.userId = first.userId := by
  unfold RawReaction.isSame
  rw [Bool.and_eq_true, decide_eq_true_eq, decide_eq_true_eq]
  exact and_congr eq_comm eq_comm

/-- What an added reaction does to the users. -/
theorem usersOf_remaining_add (reactions : List RawReaction) (reaction : RawReaction)
    (localId : String) : usersOf (remaining reactions (.add reaction)) localId =
      if localId = reaction.localId then addUser (usersOf reactions localId) reaction.userId
      else usersOf reactions localId := by
  unfold remaining
  dsimp only
  by_cases present : reactions.any reaction.isSame = true
  · rw [if_pos present]
    split_ifs with same
    · obtain ⟨other, member, isSame⟩ := List.any_eq_true.mp present
      obtain ⟨sameId, sameUser⟩ := isSame_iff.mp isSame
      have isUser : reaction.userId ∈ usersOf reactions localId :=
        mem_usersOf.mpr ⟨other, member, sameId.trans same.symm, sameUser⟩
      rw [addUser, if_pos (List.contains_iff_mem.mpr isUser)]
    · rfl
  · rw [if_neg present]
    exact usersOf_append_singleton reactions reaction localId

/-- What a removed reaction does to the users. -/
theorem usersOf_remaining_remove (reactions : List RawReaction) (reaction : RawReaction)
    (localId : String) : usersOf (remaining reactions (.remove reaction)) localId =
      if localId = reaction.localId then
        (usersOf reactions localId).filter fun userId => userId ≠ reaction.userId
      else usersOf reactions localId := by
  unfold remaining usersOf
  dsimp only
  rw [List.filter_filter]
  split_ifs with same
  · rw [← foldl_addUser_filter, List.filter_map, List.filter_filter]
    congr 2
    refine List.filter_congr fun other member => ?_
    rw [Bool.eq_iff_iff, Bool.and_eq_true, Bool.and_eq_true, Bool.not_eq_true', ← Bool.not_eq_true,
      isSame_iff, same, Function.comp_apply, decide_eq_true_eq, decide_eq_true_eq]
    tauto
  · congr 2
    refine List.filter_congr fun other member => ?_
    rw [Bool.eq_iff_iff, Bool.and_eq_true, Bool.not_eq_true', ← Bool.not_eq_true, isSame_iff,
      decide_eq_true_eq]
    exact and_iff_left_of_imp fun ofPill equal => same (ofPill.symm.trans equal.1)

/-! ## Fresh pills -/

section Fresh

variable {context : Context} {cleanReactions first second : CleanReactions} {localId : String}

/-- The users of a pill. -/
def pill (cleanReactions : CleanReactions) (localId : String) : Option (List ℕ) :=
  (cleanReactions.get? localId).map (·.userIds)

/-- How many users each pill has. -/
def pillSizes (cleanReactions : CleanReactions) : List ℕ :=
  cleanReactions.values.map fun reaction => reaction.userIds.length

/-- The pills with counts and texts that follow from their users. -/
def refresh (context : Context) (cleanReactions : CleanReactions) : CleanReactions :=
  cleanReactions.mapValues
    (context.updateUserFields (context.checkShouldDisplayReactors (pillSizes cleanReactions)))

/-- Counts and texts follow from the users. -/
def Fresh (context : Context) (cleanReactions : CleanReactions) : Prop :=
  refresh context cleanReactions = cleanReactions

theorem pill_refresh : pill (refresh context cleanReactions) localId =
    pill cleanReactions localId := by
  unfold pill refresh
  rw [Dict.get?_mapValues_eq, Option.map_map]
  rfl

theorem pillSizes_mapValues (change : MessageCleanReaction → MessageCleanReaction)
    (sameUsers : ∀ reaction, (change reaction).userIds = reaction.userIds) :
    pillSizes (cleanReactions.mapValues change) = pillSizes cleanReactions := by
  unfold pillSizes
  rw [Dict.values_mapValues, List.map_map]
  exact List.map_congr_left fun reaction _ => congrArg List.length (sameUsers reaction)

theorem fresh_refresh : Fresh context (refresh context cleanReactions) := by
  have sameSizes : pillSizes (refresh context cleanReactions) = pillSizes cleanReactions :=
    pillSizes_mapValues _ fun _ => rfl
  unfold Fresh
  nth_rewrite 1 [refresh]
  rw [sameSizes]
  unfold refresh
  rw [Dict.mapValues_mapValues]
  rfl

/-- Counts that have been set are the numbers of users. -/
theorem reactionCounts_updateCleanReactions :
    reactionCounts (context.updateCleanReactions cleanReactions) = pillSizes cleanReactions := by
  unfold reactionCounts Context.updateCleanReactions pillSizes
  rw [Dict.values_mapValues, List.map_map]
  rfl

/-- After `update_vote_text_on_message` the pills are fresh, also when counts were out of date. -/
theorem updateVoteTextOnMessage_eq :
    context.updateVoteTextOnMessage cleanReactions = refresh context cleanReactions := by
  unfold Context.updateVoteTextOnMessage
  dsimp only
  rw [reactionCounts_updateCleanReactions]
  unfold Context.updateCleanReactions refresh
  rw [Dict.mapValues_mapValues]
  rfl

/-- Fresh pills need no update. -/
theorem updateCleanReactions_of_fresh (fresh : Fresh context cleanReactions) :
    context.updateCleanReactions cleanReactions = cleanReactions := by
  have sameCounts : reactionCounts cleanReactions = pillSizes cleanReactions := by
    conv_lhs => rw [← fresh]
    unfold reactionCounts refresh pillSizes
    rw [Dict.values_mapValues, List.map_map]
    rfl
  unfold Context.updateCleanReactions
  dsimp only
  rw [sameCounts]
  exact fresh

/-- Fresh pills with the same users are the same. -/
theorem samePills_of_fresh (firstFresh : Fresh context first) (secondFresh : Fresh context second)
    (samePill : ∀ localId, pill first localId = pill second localId) :
    SamePills first second := by
  have sameUsers : ∀ localId, (first.mapValues (·.userIds)).get? localId =
      (second.mapValues (·.userIds)).get? localId := by
    intro localId
    rw [Dict.get?_mapValues_eq, Dict.get?_mapValues_eq]
    exact samePill localId
  have sameTotal : (pillSizes first).sum = (pillSizes second).sum := by
    have perm := ((Dict.entries_perm sameUsers).map fun entry => entry.2.length).sum_nat
    simpa [Dict.mapValues, pillSizes, Dict.values, Function.comp_def] using perm
  have sameDisplay : context.checkShouldDisplayReactors (pillSizes first) =
      context.checkShouldDisplayReactors (pillSizes second) := by
    unfold Context.checkShouldDisplayReactors
    rw [sameTotal]
  intro localId
  have samePill := samePill localId
  rw [← firstFresh, ← secondFresh]
  unfold refresh pill at *
  rw [Dict.get?_mapValues_eq, Dict.get?_mapValues_eq, Option.map_map, Option.map_map]
  cases isFirst : first.get? localId with
  | none =>
      cases isSecond : second.get? localId with
      | none => rfl
      | some other =>
          rw [isFirst, isSecond] at samePill
          simp at samePill
  | some reaction =>
      cases isSecond : second.get? localId with
      | none =>
          rw [isFirst, isSecond] at samePill
          simp at samePill
      | some other =>
          rw [isFirst, isSecond, Option.map_some, Option.map_some, Option.some.injEq] at samePill
          rw [Option.map_some, Option.map_some, Function.comp_apply, Function.comp_apply,
            sameDisplay]
          unfold Context.updateUserFields
          dsimp only
          rw [samePill]

/-! ## Events -/

theorem pill_set {reaction : MessageCleanReaction} {key : String} :
    pill (cleanReactions.set key reaction) localId =
      if localId = key then some reaction.userIds else pill cleanReactions localId := by
  unfold pill
  rw [Dict.get?_set]
  split <;> rfl

theorem pill_erase {key : String} :
    pill (cleanReactions.erase key) localId =
      if localId = key then none else pill cleanReactions localId := by
  unfold pill
  rw [Dict.get?_erase]
  split <;> rfl

/-- An added reaction: fresh pills stay fresh, and the user is added to one pill. -/
theorem addReaction_spec (fresh : Fresh context cleanReactions) (event : RawReaction) :
    Fresh context (context.addReaction event cleanReactions) ∧
      ∀ localId, pill (context.addReaction event cleanReactions) localId =
        if localId = event.localId then
          some (addUser ((pill cleanReactions localId).getD []) event.userId)
        else pill cleanReactions localId := by
  unfold Context.addReaction
  dsimp only
  rw [updateCleanReactions_of_fresh fresh]
  cases found : cleanReactions.get? event.localId with
  | some reaction =>
      dsimp only
      have isPill : pill cleanReactions event.localId = some reaction.userIds := by
        rw [pill, found]
        rfl
      split_ifs with present
      · refine ⟨fresh, fun localId => ?_⟩
        split_ifs with same
        · rw [same, isPill, Option.getD_some, addUser, if_pos present]
        · rfl
      · rw [updateVoteTextOnMessage_eq]
        refine ⟨fresh_refresh, fun localId => ?_⟩
        rw [pill_refresh, pill_set, pill_set]
        split_ifs with same
        · rw [same, isPill, Option.getD_some, addUser, if_neg present]
          rfl
        · rfl
  | none =>
      dsimp only
      rw [updateVoteTextOnMessage_eq]
      refine ⟨fresh_refresh, fun localId => ?_⟩
      rw [pill_refresh, pill_set]
      split_ifs with same
      · rw [same, pill, found]
        rfl
      · rfl

/-- A removed reaction: fresh pills stay fresh, the user is left out of one pill, and a pill of no
users is left out. -/
theorem removeReaction_spec (fresh : Fresh context cleanReactions)
    (nonempty : ∀ localId, pill cleanReactions localId ≠ some []) (event : RawReaction) :
    Fresh context (context.removeReaction event cleanReactions) ∧
      ∀ localId, pill (context.removeReaction event cleanReactions) localId =
        if localId = event.localId then
          ((pill cleanReactions localId).map fun userIds =>
            userIds.filter fun userId => userId ≠ event.userId).filter fun userIds => userIds ≠ []
        else pill cleanReactions localId := by
  unfold Context.removeReaction
  dsimp only
  rw [updateCleanReactions_of_fresh fresh]
  cases found : cleanReactions.get? event.localId with
  | none =>
      dsimp only
      refine ⟨fresh, fun localId => ?_⟩
      split_ifs with same
      · rw [same, pill, found]
        rfl
      · rfl
  | some reaction =>
      dsimp only
      have isPill : pill cleanReactions event.localId = some reaction.userIds := by
        rw [pill, found]
        rfl
      split_ifs with absent none
      · refine ⟨fresh, fun localId => ?_⟩
        split_ifs with same
        · have notUser : event.userId ∉ reaction.userIds := by simpa using absent
          have kept : (reaction.userIds.filter fun userId => userId ≠ event.userId) =
              reaction.userIds :=
            List.filter_eq_self.mpr fun userId member => by
              rw [decide_eq_true_eq]
              exact fun equal => notUser (equal ▸ member)
          have some : reaction.userIds ≠ [] := fun empty =>
            nonempty event.localId (isPill.trans (congrArg Option.some empty))
          rw [same, isPill, Option.map_some, kept]
          simp [Option.filter, some]
        · rfl
      · rw [updateVoteTextOnMessage_eq]
        refine ⟨fresh_refresh, fun localId => ?_⟩
        rw [pill_refresh, pill_erase]
        split_ifs with same
        · rw [same, isPill, Option.map_some, List.length_eq_zero_iff.mp none]
          rfl
        · rfl
      · rw [updateVoteTextOnMessage_eq]
        refine ⟨fresh_refresh, fun localId => ?_⟩
        rw [pill_refresh, pill_set, pill_set]
        split_ifs with same
        · have some : (reaction.userIds.filter fun userId => userId ≠ event.userId) ≠ [] :=
            fun empty => none (List.length_eq_zero_iff.mpr empty)
          rw [same, isPill, Option.map_some, Option.filter_some, if_pos (decide_eq_true some)]
          rfl
        · rfl

/-! ## The pills of raw reactions -/

/-- The pills are fresh, and have the users of the raw reactions. -/
def Tracks (context : Context) (reactions : List RawReaction) (cleanReactions : CleanReactions) :
    Prop :=
  Fresh context cleanReactions ∧ ∀ localId, pill cleanReactions localId =
    (some (usersOf reactions localId)).filter fun userIds => userIds ≠ []

theorem Tracks.samePills {reactions : List RawReaction} (firstTracks : Tracks context reactions first)
    (secondTracks : Tracks context reactions second) : SamePills first second :=
  samePills_of_fresh firstTracks.1 secondTracks.1 fun localId =>
    (firstTracks.2 localId).trans (secondTracks.2 localId).symm

theorem Tracks.getD_pill {reactions : List RawReaction}
    (tracks : Tracks context reactions cleanReactions) :
    (pill cleanReactions localId).getD [] = usersOf reactions localId := by
  rw [tracks.2]
  by_cases empty : usersOf reactions localId = [] <;> simp [Option.filter, empty]

/-- An event keeps the pills those of the raw reactions. -/
theorem Tracks.applyEvent {reactions : List RawReaction}
    (tracks : Tracks context reactions cleanReactions) (event : Context.Event) :
    Tracks context (remaining reactions event) (context.applyEvent cleanReactions event) := by
  cases event with
  | add reaction =>
      obtain ⟨fresh, pills⟩ := addReaction_spec tracks.1 reaction
      refine ⟨fresh, fun localId => (pills localId).trans ?_⟩
      rw [usersOf_remaining_add]
      split_ifs with same
      · rw [tracks.getD_pill]
        have some : addUser (usersOf reactions localId) reaction.userId ≠ [] := by
          unfold addUser
          split_ifs with present
          · exact List.ne_nil_of_mem (List.contains_iff_mem.mp present)
          · simp
        simp [Option.filter, some]
      · exact tracks.2 localId
  | remove reaction =>
      have nonempty : ∀ localId, pill cleanReactions localId ≠ some [] := by
        intro localId isEmpty
        rw [tracks.2] at isEmpty
        have kept := (Option.filter_eq_some_iff.mp isEmpty).2
        simp at kept
      obtain ⟨fresh, pills⟩ := removeReaction_spec tracks.1 nonempty reaction
      refine ⟨fresh, fun localId => (pills localId).trans ?_⟩
      rw [usersOf_remaining_remove]
      split_ifs with same
      · rw [tracks.2]
        by_cases empty : usersOf reactions localId = [] <;> simp [Option.filter, empty]
      · exact tracks.2 localId

/-- The loop over the raw reactions collects the local ids and their users. -/
theorem foldl_collectReaction (reactions : List RawReaction) (localId : String) :
    (localId ∈ (reactions.foldl Context.collectReaction (Dict.empty, Dict.empty)).1.keys ↔
      usersOf reactions localId ≠ []) ∧
    (reactions.foldl Context.collectReaction (Dict.empty, Dict.empty)).2.getD localId [] =
      usersOf reactions localId := by
  induction reactions using List.reverseRecOn generalizing localId with
  | nil => exact ⟨by simp [usersOf], rfl⟩
  | append_singleton reactions reaction inductionHypothesis =>
      rw [List.foldl_concat, usersOf_append_singleton]
      generalize reactions.foldl Context.collectReaction (Dict.empty, Dict.empty) = collected at *
      -- The users that are there before this reaction is counted.
      have usersBefore : (if reaction.localId ∈ collected.1.keys then collected
          else (collected.1.set reaction.localId reaction,
            collected.2.set reaction.localId [])).2.getD reaction.localId [] =
          usersOf reactions reaction.localId := by
        split_ifs with listed
        · exact (inductionHypothesis reaction.localId).2
        · rw [Dict.getD_set, if_pos rfl]
          by_contra some
          exact listed ((inductionHypothesis reaction.localId).1.mpr (Ne.symm some))
      have keysBefore : localId ∈ (if reaction.localId ∈ collected.1.keys then collected
          else (collected.1.set reaction.localId reaction,
            collected.2.set reaction.localId [])).1.keys ↔
          localId = reaction.localId ∨ localId ∈ collected.1.keys := by
        split_ifs with listed
        · refine (or_iff_right_of_imp ?_).symm
          rintro rfl
          exact listed
        · exact Dict.mem_keys_set
      have othersBefore : localId ≠ reaction.localId →
          (if reaction.localId ∈ collected.1.keys then collected
          else (collected.1.set reaction.localId reaction,
            collected.2.set reaction.localId [])).2.getD localId [] =
          usersOf reactions localId := by
        intro other
        split_ifs with listed
        · exact (inductionHypothesis localId).2
        · rw [Dict.getD_set, if_neg other]
          exact (inductionHypothesis localId).2
      unfold Context.collectReaction
      dsimp only
      rw [usersBefore]
      generalize (if reaction.localId ∈ collected.1.keys then collected
          else (collected.1.set reaction.localId reaction,
            collected.2.set reaction.localId [])) = before at *
      have someone : ∀ userIds : List ℕ, addUser userIds reaction.userId ≠ [] := by
        intro userIds
        unfold addUser
        split_ifs with present
        · exact List.ne_nil_of_mem (List.contains_iff_mem.mp present)
        · simp
      by_cases same : localId = reaction.localId
      · rw [if_pos same]
        subst same
        refine ⟨iff_of_true ?_ (someone _), ?_⟩
        · split_ifs <;> exact keysBefore.mpr (Or.inl rfl)
        · unfold addUser
          split_ifs with present
          · exact usersBefore
          · rw [Dict.getD_set, if_pos rfl]
      · rw [if_neg same]
        refine ⟨?_, ?_⟩
        · have otherKey : (localId = reaction.localId ∨ localId ∈ collected.1.keys) ↔
              localId ∈ collected.1.keys := or_iff_right same
          rw [← (inductionHypothesis localId).1, ← otherKey, ← keysBefore]
          split_ifs <;> rfl
        · split_ifs with present
          · exact othersBefore same
          · rw [Dict.getD_set, if_neg same]
            exact othersBefore same

/-- What is built from raw reactions are fresh pills with their users. -/
theorem tracks_generateCleanReactions (context : Context) (reactions : List RawReaction) :
    Tracks context reactions (context.generateCleanReactions reactions) := by
  unfold Context.generateCleanReactions
  have collects := foldl_collectReaction reactions
  generalize reactions.foldl Context.collectReaction (Dict.empty, Dict.empty) = collected at *
  dsimp only
  set shouldDisplayReactors := context.checkShouldDisplayReactors
    (collected.1.keys.map fun localId => (collected.2.getD localId []).length) with isDisplay
  set make : String × RawReaction → MessageCleanReaction := fun entry =>
    context.makeCleanReaction entry.2 (collected.2.getD entry.1 []) shouldDisplayReactors with isMake
  set built := collected.1.entries.foldl (fun cleanReactions entry =>
    cleanReactions.set entry.1 (make entry)) Dict.empty with isBuilt
  have asList : built = Dict.ofList (collected.1.entries.map fun entry => (entry.1, make entry)) := by
    rw [isBuilt, Dict.ofList, List.foldl_map]
  have distinct : ((collected.1.entries.map fun entry => (entry.1, make entry)).map
      Prod.fst).Nodup := by
    rw [List.map_map]
    exact collected.1.nodupKeys
  have entries : built.entries = collected.1.entries.map fun entry => (entry.1, make entry) := by
    rw [asList, Dict.entries_ofList distinct]
  have sizes : context.checkShouldDisplayReactors (pillSizes built) = shouldDisplayReactors := by
    rw [isDisplay, pillSizes, Dict.values, entries, Dict.keys, List.map_map, List.map_map,
      List.map_map]
    rfl
  have found : ∀ localId, built.get? localId =
      (collected.1.get? localId).map fun reaction => make (localId, reaction) := by
    intro localId
    rw [isBuilt]
    refine ((Dict.set_pointwise make).foldl_entries collected.1 localId).trans ?_
    cases collected.1.get? localId <;> rfl
  refine ⟨?_, fun localId => ?_⟩
  · unfold Fresh refresh
    rw [sizes]
    refine Dict.mapValues_of_fixed fun localId reaction isReaction => ?_
    rw [found] at isReaction
    obtain ⟨raw, _, rfl⟩ := Option.map_eq_some_iff.mp isReaction
    rfl
  · unfold pill
    rw [found, Option.map_map]
    cases isCollected : collected.1.get? localId with
    | none =>
        have absent : usersOf reactions localId = [] := by
          by_contra some
          exact Dict.get?_eq_none_iff.mp isCollected ((collects localId).1.mpr some)
        rw [absent]
        rfl
    | some raw =>
        have some : usersOf reactions localId ≠ [] :=
          (collects localId).1.mp (Dict.mem_keys_of_get? isCollected)
        rw [Option.filter_some, if_pos (decide_eq_true some), Option.map_some]
        exact congrArg Option.some (collects localId).2

/-- After any reaction events, the pills of a message are those that are built from the raw reactions
that remain. -/
theorem applyEvents_agrees (context : Context) (reactions : List RawReaction)
    (events : List Context.Event) :
    SamePills
      (events.foldl context.applyEvent (context.generateCleanReactions reactions))
      (context.generateCleanReactions (events.foldl remaining reactions)) := by
  have tracks : ∀ (events : List Context.Event) (reactions : List RawReaction)
      (cleanReactions : CleanReactions), Tracks context reactions cleanReactions →
        Tracks context (events.foldl remaining reactions)
          (events.foldl context.applyEvent cleanReactions) := by
    intro events
    induction events with
    | nil => exact fun _ _ tracks => tracks
    | cons event rest inductionHypothesis =>
        exact fun _ _ tracks => inductionHypothesis _ _ (tracks.applyEvent event)
  exact (tracks events reactions _ (tracks_generateCleanReactions context reactions)).samePills
    (tracks_generateCleanReactions context _)

end Fresh

end Zulip.Client.Reactions
