/-!
# Message dictionaries

The wide dictionary that `do_send_messages` attaches to a message event, and the
dictionary `MessageDict.finalize_payload` derives from it for one client.
Fields that this code copies without reading are kept as `JsonFields`.
-/

namespace Zulip.Tornado

/-- Keys that the server carries but never reads, with the JSON text of their values. -/
abbrev JsonFields := List (String × String)

/-- `hydrate_recipient_info`: the `type` of a message and its `display_recipient`,
a stream name or the JSON list of the participants. -/
inductive DisplayRecipient where
  | stream (name : String)
  | direct (participants : String)
deriving DecidableEq, Repr

namespace DisplayRecipient

/-- The value of the `type` key. -/
def type : DisplayRecipient → String
  | .stream _ => "stream"
  | .direct _ => "private"

end DisplayRecipient

/-- The result of `MessageDict.wide_dict`. -/
structure WideDict where
  id : Int
  senderId : Int
  displayRecipient : DisplayRecipient
  subject : String
  client : String
  content : String
  renderedContent : String
  senderFullName : String
  senderEmail : String
  senderDeliveryEmail : String
  senderRealmId : Int
  senderAvatarSource : String
  senderAvatarVersion : Int
  senderEmailAddressVisibility : Int
  rest : JsonFields
deriving DecidableEq, Repr

/-- The API form of a message, as `finalize_payload` returns it. -/
structure MessagePayload where
  id : Int
  senderId : Int
  displayRecipient : DisplayRecipient
  subject : String
  client : String
  content : String
  contentType : String
  /-- Present only when `keep_rendered_content` is set. -/
  renderedContent : Option String
  senderFullName : String
  senderEmail : String
  avatarUrl : Option String
  /-- The `invite_only_stream` key, which only mirroring clients receive. -/
  inviteOnlyStream : Option Bool
  rest : JsonFields
deriving DecidableEq, Repr

/-- The avatar, e-mail domain and translation helpers that `finalize_payload` calls. -/
structure PayloadEnvironment where
  /-- `get_avatar_field`, by user id, realm id, e-mail, source, version, `medium`
  and `client_gravatar`. -/
  getAvatarField : Int → Int → String → String → Int → Bool → Bool → Option String
  getAvatarForInaccessibleUser : String
  getFakeEmailDomain : String → String
  inaccessibleUserName : String

namespace UserProfile

/-- `UserProfile.EMAIL_ADDRESS_VISIBILITY_EVERYONE`. -/
def emailAddressVisibilityEveryone : Int := 1

end UserProfile

namespace MessageDict

/-- `MessageDict.set_sender_avatar`: the value it stores under `avatar_url`. -/
def setSenderAvatar (env : PayloadEnvironment) (obj : WideDict) (clientGravatar : Bool)
    (canAccessSender : Bool) : Option String :=
  if !canAccessSender then
    some env.getAvatarForInaccessibleUser
  else
    env.getAvatarField obj.senderId obj.senderRealmId obj.senderDeliveryEmail
      obj.senderAvatarSource obj.senderAvatarVersion false clientGravatar

/-- `MessageDict.finalize_payload`. The keys it deletes have no field in the result. -/
def finalizePayload (env : PayloadEnvironment) (obj : WideDict) (applyMarkdown clientGravatar : Bool)
    (keepRenderedContent : Bool) (canAccessSender : Bool) (realmHost : String)
    (senderApplyRawContent : List String) : MessagePayload :=
  let clientGravatar :=
    if obj.senderEmailAddressVisibility ≠ UserProfile.emailAddressVisibilityEveryone then false
    else clientGravatar
  let senderFullName := if !canAccessSender then env.inaccessibleUserName else obj.senderFullName
  let senderEmail :=
    if !canAccessSender then
      "user" ++ toString obj.senderId ++ "@" ++ env.getFakeEmailDomain realmHost
    else obj.senderEmail
  -- The exemption list is matched against the name the client will see.
  let rendered := applyMarkdown && !senderApplyRawContent.contains senderFullName
  { id := obj.id
    senderId := obj.senderId
    displayRecipient := obj.displayRecipient
    subject := obj.subject
    client := obj.client
    content := if rendered then obj.renderedContent else obj.content
    contentType := if rendered then "text/html" else "text/x-markdown"
    renderedContent := if keepRenderedContent then some obj.renderedContent else none
    senderFullName := senderFullName
    senderEmail := senderEmail
    avatarUrl := setSenderAvatar env obj clientGravatar canAccessSender
    inviteOnlyStream := none
    rest := obj.rest }

@[simp] theorem finalizePayload_id (env : PayloadEnvironment) (obj : WideDict)
    (applyMarkdown clientGravatar keepRenderedContent canAccessSender : Bool) (realmHost : String)
    (senderApplyRawContent : List String) :
    (finalizePayload env obj applyMarkdown clientGravatar keepRenderedContent canAccessSender
      realmHost senderApplyRawContent).id = obj.id := rfl

@[simp] theorem finalizePayload_senderId (env : PayloadEnvironment) (obj : WideDict)
    (applyMarkdown clientGravatar keepRenderedContent canAccessSender : Bool) (realmHost : String)
    (senderApplyRawContent : List String) :
    (finalizePayload env obj applyMarkdown clientGravatar keepRenderedContent canAccessSender
      realmHost senderApplyRawContent).senderId = obj.senderId := rfl

end MessageDict

end Zulip.Tornado
