import Zulip.Foundation.Dict

/-!
# The users of a register state

`format_user_row`, with the two rows that reach it: the one that `get_users_for_api` reads while
a register state is fetched and the one that `notify_created_user` puts into a `realm_user` event.
-/

namespace Zulip.Register

/-- An entry of the list `evaluation` of a bot. -/
structure Evaluation where
  key : String
  message : String
deriving DecidableEq, Repr

/-- A `RawUserDict`. `none` in the last three fields also stands for a missing key, which
`row.get` does not tell from a null. -/
structure RawUserDict where
  id : Nat
  fullName : String
  email : String
  avatarSource : String
  avatarVersion : Nat
  isActive : Bool
  role : Nat
  isBillingAdmin : Bool
  isBot : Bool
  timezone : String
  /-- In the format of `isoformat`. -/
  dateJoined : String
  botOwnerId : Option Nat
  deliveryEmail : String
  botType : Option Nat
  longTermIdle : Bool
  emailAddressVisibility : Nat
  defaultSendingStream : Option Nat
  assistantType : Option String
  evaluation : Option (List Evaluation)
deriving DecidableEq, Repr

/-- A custom profile field value, by the id of its field. -/
abbrev ProfileData := List (String × String)

/-- An `APIUserDict`. The outer `Option` of a field says whether the key is there. -/
structure APIUserDict where
  email : String
  userId : Nat
  avatarVersion : Nat
  isAdmin : Bool
  isOwner : Bool
  isGuest : Bool
  isBillingAdmin : Bool
  role : Nat
  isBot : Bool
  fullName : String
  timezone : String
  isActive : Bool
  dateJoined : String
  deliveryEmail : Option String
  defaultSendingStream : Option (Option Nat)
  evaluation : Option (Option (List Evaluation))
  avatarUrl : Option (Option String)
  botType : Option (Option Nat)
  assistantType : Option (Option String)
  isSystemBot : Option Bool
  botOwnerId : Option (Option Nat)
  profileData : Option ProfileData
deriving DecidableEq, Repr

/-- `UserProfile.ROLE_REALM_OWNER`. -/
def roleRealmOwner : Nat := 100

/-- `UserProfile.ROLE_REALM_ADMINISTRATOR`. -/
def roleRealmAdministrator : Nat := 200

/-- `UserProfile.ROLE_MEMBER`. -/
def roleMember : Nat := 400

/-- `UserProfile.ROLE_GUEST`. -/
def roleGuest : Nat := 600

/-- `UserProfile.EMAIL_ADDRESS_VISIBILITY_EVERYONE`. -/
def emailAddressVisibilityEveryone : Nat := 1

/-- `is_administrator_role`. -/
def isAdministratorRole (role : Nat) : Bool :=
  role ∈ [roleRealmAdministrator, roleRealmOwner]

/-- `url.startswith("https://secure.gravatar.com/")`. -/
def isGravatarUrl (url : String) : Bool :=
  "https://secure.gravatar.com/".toList.isPrefixOf url.toList

/-- What the functions on user dictionaries call elsewhere. -/
structure UserLibrary where
  canonicalizeTimezone : String → String
  /-- `can_access_delivery_email` for the acting user. -/
  canAccessDeliveryEmail : Nat → Nat → Bool
  /-- `get_avatar_field` of the row, with `client_gravatar`. -/
  getAvatarField : RawUserDict → Bool → Option String
  isCrossRealmBotEmail : String → Bool
  /-- The email address visibility that the table `UserProfile` holds. -/
  emailAddressVisibility : Nat → Nat
  /-- The fake address that `get_data_for_inaccessible_user` makes. -/
  fakeEmail : Nat → String
  /-- `UserProfile.INACCESSIBLE_USER_NAME`, translated. -/
  inaccessibleUserName : String
  /-- `get_avatar_for_inaccessible_user`, a file among the static files of the server. -/
  avatarForInaccessibleUser : String
  avatarIsStatic : isGravatarUrl avatarForInaccessibleUser = false

namespace UserLibrary

/-- `format_user_row` for an acting user who is logged in. -/
def formatUserRow (library : UserLibrary) (row : RawUserDict) (clientGravatar : Bool)
    (userAvatarUrlFieldOptional : Bool) (customProfileFieldData : Option ProfileData) :
    APIUserDict where
  email := row.email
  userId := row.id
  avatarVersion := row.avatarVersion
  isAdmin := isAdministratorRole row.role
  isOwner := row.role = roleRealmOwner
  isGuest := row.role = roleGuest
  isBillingAdmin := row.isBillingAdmin
  role := row.role
  isBot := row.isBot
  fullName := row.fullName
  timezone := library.canonicalizeTimezone row.timezone
  isActive := row.isActive
  dateJoined := row.dateJoined
  deliveryEmail :=
    if library.canAccessDeliveryEmail row.id row.emailAddressVisibility then some row.deliveryEmail
    else none
  defaultSendingStream := some row.defaultSendingStream
  evaluation := some row.evaluation
  avatarUrl :=
    if !userAvatarUrlFieldOptional || !row.longTermIdle then
      some (library.getAvatarField row clientGravatar)
    else none
  botType := if row.isBot then some row.botType else none
  assistantType := if row.isBot then some row.assistantType else none
  isSystemBot := if row.isBot && library.isCrossRealmBotEmail row.email then some true else none
  botOwnerId := if row.isBot then some row.botOwnerId else none
  profileData := if row.isBot then none else customProfileFieldData

/-- `get_data_for_inaccessible_user`. -/
def getDataForInaccessibleUser (library : UserLibrary) (userId : Nat) : APIUserDict where
  email := library.fakeEmail userId
  userId := userId
  avatarVersion := 1
  isAdmin := false
  isOwner := false
  isGuest := false
  isBillingAdmin := false
  role := roleMember
  isBot := false
  fullName := library.inaccessibleUserName
  timezone := ""
  isActive := true
  dateJoined := "1970-01-01T00:00:00+00:00"
  deliveryEmail := none
  defaultSendingStream := none
  evaluation := none
  avatarUrl := some (some library.avatarForInaccessibleUser)
  botType := none
  assistantType := none
  isSystemBot := none
  botOwnerId := none
  profileData := some []

/-- What `get_users_for_api` puts under a user id. It sets `evaluation` to a list, which is empty
for a user without evaluations. -/
inductive Fetched (library : UserLibrary) : Nat → APIUserDict → Prop where
  | accessible (row : RawUserDict) (evaluation : List Evaluation)
      (clientGravatar userAvatarUrlFieldOptional : Bool) (customProfileFieldData : ProfileData) :
      Fetched library row.id
        (library.formatUserRow { row with evaluation := some evaluation } clientGravatar
          userAvatarUrlFieldOptional (some customProfileFieldData))
  | inaccessible (userId : Nat) :
      Fetched library userId (library.getDataForInaccessibleUser userId)

/-- The `person` of an event that `notify_created_user` sends. The row comes from
`user_profile_to_user_row`, which leaves three fields out. -/
inductive Created (library : UserLibrary) : APIUserDict → Prop where
  | accessible (row : RawUserDict) :
      Created library
        (library.formatUserRow
          { row with defaultSendingStream := none, assistantType := none, evaluation := none }
          false false (some []))
  | inaccessible (userId : Nat) :
      Created library (library.getDataForInaccessibleUser userId)

/-- `person` as the branch of `apply_event` for a created user stores it; `none` when the branch
raises an error. -/
def addedPerson (library : UserLibrary) (clientGravatar : Bool) (person : APIUserDict) :
    Option APIUserDict :=
  let clientGravatar := clientGravatar &&
    library.emailAddressVisibility person.userId = emailAddressVisibilityEveryone
  let profileData := if person.isBot then person.profileData else some []
  if clientGravatar then
    match person.avatarUrl with
    | some (some url) =>
      some { person with
        avatarUrl := some (if isGravatarUrl url then none else some url)
        isActive := true
        profileData := profileData }
    | _ => none
  else
    some { person with isActive := true, profileData := profileData }

/-- The branch keeps the evaluations of the person. -/
theorem addedPerson_evaluation {library : UserLibrary} {clientGravatar : Bool}
    {person added : APIUserDict}
    (stored : library.addedPerson clientGravatar person = some added) :
    added.evaluation = person.evaluation := by
  unfold addedPerson at stored
  dsimp only at stored
  split at stored
  · split at stored
    · cases stored
      rfl
    · cases stored
  · cases stored
    rfl

theorem addedPerson_userId {library : UserLibrary} {clientGravatar : Bool}
    {person added : APIUserDict}
    (stored : library.addedPerson clientGravatar person = some added) :
    added.userId = person.userId := by
  unfold addedPerson at stored
  dsimp only at stored
  split at stored
  · split at stored
    · cases stored
      rfl
    · cases stored
  · cases stored
    rfl

/-- The data of an inaccessible user is stored as the event has it. -/
theorem addedPerson_inaccessible (library : UserLibrary) (clientGravatar : Bool) (userId : Nat) :
    library.addedPerson clientGravatar (library.getDataForInaccessibleUser userId) =
      some (library.getDataForInaccessibleUser userId) := by
  simp [addedPerson, getDataForInaccessibleUser, library.avatarIsStatic]

/-- A fetched user and a created user have the same evaluations only when both are inaccessible. -/
theorem evaluation_eq_iff {library : UserLibrary} {userId : Nat} {entry person : APIUserDict}
    (fetched : library.Fetched userId entry) (created : library.Created person) :
    entry.evaluation = person.evaluation ↔
      entry = library.getDataForInaccessibleUser userId ∧
        person = library.getDataForInaccessibleUser person.userId := by
  constructor
  · intro same
    cases fetched with
    | accessible row evaluation gravatar optional fields =>
      cases created <;> simp [formatUserRow, getDataForInaccessibleUser] at same
    | inaccessible =>
      cases created with
      | accessible row => simp [formatUserRow, getDataForInaccessibleUser] at same
      | inaccessible => exact ⟨rfl, rfl⟩
  · rintro ⟨entryInaccessible, personInaccessible⟩
    rw [entryInaccessible, personInaccessible]
    rfl

/-- A created user is stored as the fetched entry of the same user only when the registering
user may not access that user. -/
theorem addedPerson_eq_entry_iff {library : UserLibrary} (clientGravatar : Bool)
    {entry person : APIUserDict} (fetched : library.Fetched person.userId entry)
    (created : library.Created person) :
    library.addedPerson clientGravatar person = some entry ↔
      entry = library.getDataForInaccessibleUser person.userId ∧
        person = library.getDataForInaccessibleUser person.userId := by
  constructor
  · intro stored
    exact (evaluation_eq_iff fetched created).mp (addedPerson_evaluation stored)
  · rintro ⟨entryInaccessible, personInaccessible⟩
    rw [entryInaccessible, personInaccessible]
    exact library.addedPerson_inaccessible clientGravatar person.userId

end UserLibrary

end Zulip.Register
