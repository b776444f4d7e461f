import Mathlib.Data.List.Forall2
import Zulip.Foundation.Program

/-!
# The payloads of messages

Messages reach clients in events and in pages. `messagePayloads_iff`: the content type of a payload
tells what its content is, and both ways give the same content, unless a stored translation replaces
the source of a message or the list of senders with raw content is missing.
-/

namespace Zulip.Messages

/-- A text, with what it is. -/
inductive Content where
  | source (text : String)
  | html (text : String)
deriving DecidableEq

inductive ContentType where
  | textHtml
  | textMarkdown
deriving DecidableEq

inductive EmailAddressVisibility where
  | everyone
  | restricted
deriving DecidableEq

/-- A cached message with the data of its sender. -/
structure WideDict where
  id : ℕ
  senderId : ℕ
  senderRealmId : ℕ
  senderFullName : String
  senderEmail : String
  senderDeliveryEmail : String
  senderEmailAddressVisibility : EmailAddressVisibility
  senderAvatarSource : String
  senderAvatarVersion : ℕ
  content : String
  renderedContent : String
  editHistory : Option String
deriving DecidableEq

/-- What a client gets of a message. -/
structure Payload where
  id : ℕ
  senderId : ℕ
  senderFullName : String
  senderEmail : String
  avatarUrl : Option String
  content : Option Content
  contentType : ContentType
  renderedContent : Option String
  editHistory : Option String
  flags : List String
  searchFields : Option (String × String)
  translateSuccessfully : Option Bool
deriving DecidableEq

/-- Addresses that other modules compute, and the translation of "Unknown user". -/
structure SenderDetails where
  inaccessibleUserName : String
  avatarField : ℕ → ℕ → String → String → ℕ → Bool → Option String
  avatarForInaccessibleUser : String
  emailForInaccessibleUser : ℕ → String

/-- What a client asks for; the list of senders with raw content may be missing. -/
structure PayloadSettings where
  applyMarkdown : Bool
  clientGravatar : Bool
  senderApplyRawContent : Option (List String)
  language : Option String

/-- `TypeError`: the argument is not iterable. -/
inductive PayloadError where
  | notIterable
deriving DecidableEq

/-- A stored translation of a message, rendered or not. -/
structure MessageLanguage where
  messageId : ℕ
  language : String
  renderedContent : Option String

/-- The name of the sender that a client gets. -/
def WideDict.shownFullName (message : WideDict) (details : SenderDetails)
    (canAccessSender : Bool) : String :=
  if canAccessSender then message.senderFullName else details.inaccessibleUserName

def setSenderAvatar (details : SenderDetails) (message : WideDict)
    (clientGravatar canAccessSender : Bool) : Option String :=
  if !canAccessSender then some details.avatarForInaccessibleUser
  else
    details.avatarField message.senderId message.senderRealmId message.senderDeliveryEmail
      message.senderAvatarSource message.senderAvatarVersion clientGravatar

/-- `name not in senders` -/
def notIn (name : String) : Option (List String) → Except PayloadError Bool
  | none => .error .notIterable
  | some senders => .ok !(senders.contains name)

def finalizePayload (details : SenderDetails) (message : WideDict)
    (applyMarkdown clientGravatar keepRenderedContent canAccessSender : Bool)
    (senderApplyRawContent : Option (List String)) : Except PayloadError Payload := do
  let clientGravatar := clientGravatar && message.senderEmailAddressVisibility == .everyone
  let senderFullName := message.shownFullName details canAccessSender
  let senderEmail :=
    if canAccessSender then message.senderEmail
    else details.emailForInaccessibleUser message.senderId
  let avatarUrl := setSenderAvatar details message clientGravatar canAccessSender
  -- The list is not looked at without Markdown.
  let rendered ← if applyMarkdown then notIn senderFullName senderApplyRawContent else .ok false
  return {
    id := message.id
    senderId := message.senderId
    senderFullName, senderEmail, avatarUrl
    content := some (if rendered then .html message.renderedContent else .source message.content)
    contentType := if rendered then .textHtml else .textMarkdown
    renderedContent := if keepRenderedContent then some message.renderedContent else none
    editHistory := message.editHistory
    flags := []
    searchFields := none
    translateSuccessfully := none }

/-! ## Pages -/

/-- The rows of a language; without a language there are none. -/
def getMsgLanguage (rows : List MessageLanguage) (messageId : ℕ) (language : Option String) :
    List MessageLanguage :=
  rows.filter fun row => row.messageId == messageId && some row.language == language

/-- A message of a page, with what the query has found about it. -/
structure FetchedMessage where
  message : WideDict
  flags : List String
  searchFields : Option (String × String)

/-- What `messages_for_ids` adds to the cached message, apart from the payload. -/
def FetchedMessage.flagsList (fetched : FetchedMessage) : List String :=
  if "stream_wildcard_mentioned" ∈ fetched.flags ∨ "topic_wildcard_mentioned" ∈ fetched.flags then
    fetched.flags ++ ["wildcard_mentioned"]
  else fetched.flags

/-- The edit history is left out where the realm does not allow it. -/
def FetchedMessage.withEditHistory (fetched : FetchedMessage) (allowEditHistory : Bool) :
    FetchedMessage :=
  { fetched with
    message :=
      { fetched.message with
        editHistory := if allowEditHistory then fetched.message.editHistory else none } }

/-- One message of `post_process_dicts`. -/
def postProcessDict (details : SenderDetails) (rows : List MessageLanguage)
    (settings : PayloadSettings) (canAccessSender : Bool) (fetched : FetchedMessage) :
    Except PayloadError Payload := do
  let payload ← finalizePayload details fetched.message settings.applyMarkdown
    settings.clientGravatar false canAccessSender settings.senderApplyRawContent
  let payload :=
    { payload with
      flags := fetched.flagsList
      searchFields := fetched.searchFields
      translateSuccessfully := some false }
  match (getMsgLanguage rows fetched.message.id settings.language).head? with
  | none => return payload
  | some translation =>
      return { payload with
        content := translation.renderedContent.map .html, translateSuccessfully := some true }

def messagesForIds (details : SenderDetails) (rows : List MessageLanguage)
    (settings : PayloadSettings) (allowEditHistory : Bool) (inaccessibleSenderIds : List ℕ)
    (messages : List FetchedMessage) : Except PayloadError (List Payload) :=
  messages.mapM fun fetched =>
    postProcessDict details rows settings
      (!inaccessibleSenderIds.contains fetched.message.senderId)
      (fetched.withEditHistory allowEditHistory)

/-! ## Events -/

/-- What the delivery loop of `process_message_event` makes of the message for a client. -/
def getClientPayload (details : SenderDetails) (message : WideDict) (settings : PayloadSettings)
    (userIdsWithoutAccessToSender : List ℕ) (userProfileId : ℕ) : Except PayloadError Payload :=
  match settings.senderApplyRawContent with
  -- `tuple(None)`
  | none => .error .notIterable
  | some senders =>
      finalizePayload details message settings.applyMarkdown settings.clientGravatar false
        (!userIdsWithoutAccessToSender.contains userProfileId) (some senders)

/-! ## Payloads that tell the truth -/

/-- The content type tells whether the content is HTML or the source of the message. -/
def Payload.Truthful (payload : Payload) (source : String) : Prop :=
  (payload.contentType = .textHtml ↔ ∃ text, payload.content = some (.html text)) ∧
    (payload.contentType = .textMarkdown ↔ payload.content = some (.source source))

/-- The list of senders is there, and a stored translation is rendered, for a message that is
rendered itself. -/
def PayloadAllowed (details : SenderDetails) (rows : List MessageLanguage)
    (settings : PayloadSettings) (inaccessibleSenderIds : List ℕ) (fetched : FetchedMessage) :
    Prop :=
  ∃ senders, settings.senderApplyRawContent = some senders ∧
    ∀ translation ∈ (getMsgLanguage rows fetched.message.id settings.language).head?,
      translation.renderedContent.isSome = true ∧ settings.applyMarkdown = true ∧
        fetched.message.shownFullName details
          (!inaccessibleSenderIds.contains fetched.message.senderId) ∉ senders

/-- What a page and an event have to do for a message. -/
structure Delivered (details : SenderDetails) (rows : List MessageLanguage)
    (settings : PayloadSettings) (inaccessibleSenderIds : List ℕ) (fetched : FetchedMessage)
    (payload : Payload) : Prop where
  truthful : payload.Truthful fetched.message.content
  finalized : ∃ final, finalizePayload details fetched.message settings.applyMarkdown
    settings.clientGravatar false (!inaccessibleSenderIds.contains fetched.message.senderId)
      settings.senderApplyRawContent = .ok final ∧ final.Truthful fetched.message.content
  event : (getMsgLanguage rows fetched.message.id settings.language).head? = none →
    ∀ (userProfileId : ℕ) (userIdsWithoutAccessToSender : List ℕ),
      (userProfileId ∈ userIdsWithoutAccessToSender ↔
        fetched.message.senderId ∈ inaccessibleSenderIds) →
      ∃ sent, getClientPayload details fetched.message settings userIdsWithoutAccessToSender
          userProfileId = .ok sent ∧
        sent.content = payload.content ∧ sent.contentType = payload.contentType

section Payloads

variable {details : SenderDetails} {rows : List MessageLanguage} {settings : PayloadSettings}
  {canAccessSender : Bool} {fetched : FetchedMessage}

/-- A message is rendered for a client with Markdown, unless its sender is in the list. -/
def rendersHtml (details : SenderDetails) (message : WideDict)
    (applyMarkdown canAccessSender : Bool) (senders : List String) : Bool :=
  applyMarkdown && !senders.contains (message.shownFullName details canAccessSender)

theorem rendersHtml_iff {details : SenderDetails} {message : WideDict}
    {applyMarkdown canAccessSender : Bool} {senders : List String} :
    rendersHtml details message applyMarkdown canAccessSender senders = true ↔
      applyMarkdown = true ∧ message.shownFullName details canAccessSender ∉ senders := by
  simp [rendersHtml]

/-- With a list of senders, the payload is finalized. -/
theorem finalizePayload_some (message : WideDict)
    (applyMarkdown clientGravatar keepRenderedContent canAccessSender : Bool)
    (senders : List String) :
    ∃ final, finalizePayload details message applyMarkdown clientGravatar keepRenderedContent
        canAccessSender (some senders) = .ok final ∧
      final.content = some (if rendersHtml details message applyMarkdown canAccessSender senders
        then .html message.renderedContent else .source message.content) ∧
      final.contentType = if rendersHtml details message applyMarkdown canAccessSender senders
        then .textHtml else .textMarkdown := by
  cases applyMarkdown with
  | false => exact ⟨_, rfl, rfl, rfl⟩
  | true => exact ⟨_, rfl, rfl, rfl⟩

theorem truthful_of_rendersHtml {payload : Payload} {source rendered : String} (isRendered : Bool)
    (content : payload.content = some (if isRendered then .html rendered else .source source))
    (contentType : payload.contentType = if isRendered then .textHtml else .textMarkdown) :
    payload.Truthful source := by
  rw [Payload.Truthful, content, contentType]
  cases isRendered <;> simp

/-- With a list of senders, a page has the content of the event, or the translation. -/
theorem postProcessDict_some {senders : List String}
    (isList : settings.senderApplyRawContent = some senders) :
    ∃ payload, postProcessDict details rows settings canAccessSender fetched = .ok payload ∧
      payload.contentType = (if rendersHtml details fetched.message settings.applyMarkdown
        canAccessSender senders then .textHtml else .textMarkdown) ∧
      payload.content =
        (getMsgLanguage rows fetched.message.id settings.language).head?.elim
          (some (if rendersHtml details fetched.message settings.applyMarkdown canAccessSender
            senders then .html fetched.message.renderedContent
            else .source fetched.message.content))
          fun translation => translation.renderedContent.map .html := by
  obtain ⟨final, isFinal, content, contentType⟩ := @finalizePayload_some details fetched.message
    settings.applyMarkdown settings.clientGravatar false canAccessSender senders
  rw [postProcessDict, isList, isFinal]
  cases found : (getMsgLanguage rows fetched.message.id settings.language).head? with
  | none =>
      refine ⟨_, rfl, ?_, ?_⟩
      · exact contentType
      · exact content
  | some translation =>
      refine ⟨_, rfl, ?_, ?_⟩
      · exact contentType
      · rfl

/-- Without one, a page fails, or has the source of the message or the translation. -/
theorem postProcessDict_none {payload : Payload} (noList : settings.senderApplyRawContent = none)
    (isPayload : postProcessDict details rows settings canAccessSender fetched = .ok payload) :
    payload.contentType = .textMarkdown ∧
      payload.content = (getMsgLanguage rows fetched.message.id settings.language).head?.elim
        (some (.source fetched.message.content))
        fun translation => translation.renderedContent.map .html := by
  rw [postProcessDict, noList] at isPayload
  obtain ⟨final, isFinal, isPayload⟩ := exists_of_bind_eq_ok isPayload
  rw [finalizePayload] at isFinal
  cases applyMarkdown : settings.applyMarkdown with
  | true =>
      rw [applyMarkdown] at isFinal
      cases isFinal
  | false =>
      rw [applyMarkdown] at isFinal
      cases isFinal
      cases found : (getMsgLanguage rows fetched.message.id settings.language).head? with
      | none =>
          simp only [found] at isPayload
          cases isPayload
          exact ⟨rfl, rfl⟩
      | some translation =>
          simp only [found] at isPayload
          cases isPayload
          exact ⟨rfl, rfl⟩

end Payloads

section Deliveries

variable {details : SenderDetails} {rows : List MessageLanguage} {settings : PayloadSettings}
  {allowEditHistory : Bool} {inaccessibleSenderIds : List ℕ} {fetched : FetchedMessage}

/-- Without the list of senders, no event is sent, and a translation is called source. -/
theorem Delivered.exists_senders {payload : Payload}
    (isPayload : postProcessDict details rows settings
      (!inaccessibleSenderIds.contains fetched.message.senderId)
      (fetched.withEditHistory allowEditHistory) = .ok payload)
    (delivered : Delivered details rows settings inaccessibleSenderIds fetched payload) :
    ∃ senders, settings.senderApplyRawContent = some senders := by
  cases isList : settings.senderApplyRawContent with
  | some senders => exact ⟨senders, rfl⟩
  | none =>
      obtain ⟨contentType, content⟩ := postProcessDict_none isList isPayload
      have isSource := delivered.truthful.2.mp contentType
      rw [content] at isSource
      cases found : (getMsgLanguage rows fetched.message.id settings.language).head? with
      | none =>
          by_cases inaccessible : fetched.message.senderId ∈ inaccessibleSenderIds
          · obtain ⟨sent, isSent, -⟩ := delivered.event found 0 [0]
              (iff_of_true List.mem_cons_self inaccessible)
            rw [getClientPayload, isList] at isSent
            cases isSent
          · obtain ⟨sent, isSent, -⟩ := delivered.event found 0 []
              (iff_of_false List.not_mem_nil inaccessible)
            rw [getClientPayload, isList] at isSent
            cases isSent
      | some translation =>
          have isTranslation : (getMsgLanguage rows (fetched.withEditHistory
              allowEditHistory).message.id settings.language).head? = some translation := found
          rw [isTranslation, Option.elim_some, Option.map_eq_some_iff] at isSource
          obtain ⟨text, -, isSource⟩ := isSource
          cases isSource

/-- A translation takes the place of the content, so it has to be there and to be called HTML. -/
theorem Delivered.translated {payload : Payload} {senders : List String}
    (isPayload : postProcessDict details rows settings
      (!inaccessibleSenderIds.contains fetched.message.senderId)
      (fetched.withEditHistory allowEditHistory) = .ok payload)
    (delivered : Delivered details rows settings inaccessibleSenderIds fetched payload)
    (isList : settings.senderApplyRawContent = some senders) {translation : MessageLanguage}
    (isTranslation : (getMsgLanguage rows fetched.message.id settings.language).head? =
      some translation) :
    translation.renderedContent.isSome = true ∧ settings.applyMarkdown = true ∧
      fetched.message.shownFullName details
        (!inaccessibleSenderIds.contains fetched.message.senderId) ∉ senders := by
  obtain ⟨html, markdown⟩ := delivered.truthful
  obtain ⟨other, isOther, contentType, content⟩ := @postProcessDict_some details rows settings
    (!inaccessibleSenderIds.contains fetched.message.senderId)
      (fetched.withEditHistory allowEditHistory) senders isList
  rw [isPayload] at isOther
  cases isOther
  have found : (getMsgLanguage rows (fetched.withEditHistory
      allowEditHistory).message.id settings.language).head? = some translation := isTranslation
  rw [found, Option.elim_some] at content
  cases rendered : rendersHtml details (fetched.withEditHistory allowEditHistory).message
      settings.applyMarkdown (!inaccessibleSenderIds.contains fetched.message.senderId) senders with
  | false =>
      rw [rendered, if_neg Bool.false_ne_true] at contentType
      have isSource := markdown.mp contentType
      rw [content, Option.map_eq_some_iff] at isSource
      obtain ⟨text, -, isSource⟩ := isSource
      cases isSource
  | true =>
      obtain ⟨applyMarkdown, notListed⟩ := rendersHtml_iff.mp rendered
      rw [rendered, if_pos rfl] at contentType
      obtain ⟨text, isHtml⟩ := html.mp contentType
      rw [content, Option.map_eq_some_iff] at isHtml
      obtain ⟨text, isText, -⟩ := isHtml
      exact ⟨by rw [isText]; rfl, applyMarkdown, notListed⟩

/-- What is allowed is delivered. -/
theorem PayloadAllowed.exists_delivered
    (allowed : PayloadAllowed details rows settings inaccessibleSenderIds fetched) :
    ∃ payload, postProcessDict details rows settings
        (!inaccessibleSenderIds.contains fetched.message.senderId)
        (fetched.withEditHistory allowEditHistory) = .ok payload ∧
      Delivered details rows settings inaccessibleSenderIds fetched payload := by
  obtain ⟨senders, isList, translated⟩ := allowed
  obtain ⟨payload, isPayload, contentType, content⟩ := @postProcessDict_some details rows settings
    (!inaccessibleSenderIds.contains fetched.message.senderId)
      (fetched.withEditHistory allowEditHistory) senders isList
  obtain ⟨final, isFinal, finalContent, finalType⟩ := @finalizePayload_some details
    fetched.message settings.applyMarkdown settings.clientGravatar false
      (!inaccessibleSenderIds.contains fetched.message.senderId) senders
  refine ⟨payload, isPayload, ?_, ⟨final, isList ▸ isFinal, ?_⟩, ?_⟩
  · cases found : (getMsgLanguage rows fetched.message.id settings.language).head? with
    | none =>
        have none : (getMsgLanguage rows (fetched.withEditHistory
          allowEditHistory).message.id settings.language).head? = none := found
        rw [none] at content
        exact truthful_of_rendersHtml _ content contentType
    | some translation =>
        have found' : (getMsgLanguage rows (fetched.withEditHistory
          allowEditHistory).message.id settings.language).head? = some translation := found
        obtain ⟨isRendered, applyMarkdown, notListed⟩ := translated translation found
        obtain ⟨text, isText⟩ := Option.isSome_iff_exists.mp isRendered
        have rendered : rendersHtml details (fetched.withEditHistory allowEditHistory).message
            settings.applyMarkdown (!inaccessibleSenderIds.contains fetched.message.senderId)
              senders = true := rendersHtml_iff.mpr ⟨applyMarkdown, notListed⟩
        rw [found', Option.elim_some, isText, Option.map_some] at content
        rw [rendered, if_pos rfl] at contentType
        rw [Payload.Truthful, content, contentType]
        simp
  · exact truthful_of_rendersHtml _ finalContent finalType
  · intro found userProfileId withoutAccess sameAccess
    have none : (getMsgLanguage rows (fetched.withEditHistory
        allowEditHistory).message.id settings.language).head? = none := found
    have same : withoutAccess.contains userProfileId =
        inaccessibleSenderIds.contains fetched.message.senderId := by
      rw [Bool.eq_iff_iff, List.contains_iff_mem, List.contains_iff_mem]
      exact sameAccess
    rw [none] at content
    refine ⟨final, ?_, finalContent.trans content.symm, finalType.trans contentType.symm⟩
    rw [getClientPayload, isList, same]
    exact isFinal

end Deliveries

/-- One message: the page and the event are as they have to be exactly when that is allowed. -/
theorem delivered_iff (details : SenderDetails) (rows : List MessageLanguage)
    (settings : PayloadSettings) (allowEditHistory : Bool) (inaccessibleSenderIds : List ℕ)
    (fetched : FetchedMessage) :
    (∃ payload, postProcessDict details rows settings
        (!inaccessibleSenderIds.contains fetched.message.senderId)
        (fetched.withEditHistory allowEditHistory) = .ok payload ∧
      Delivered details rows settings inaccessibleSenderIds fetched payload) ↔
      PayloadAllowed details rows settings inaccessibleSenderIds fetched := by
  constructor
  · rintro ⟨payload, isPayload, delivered⟩
    obtain ⟨senders, isList⟩ := delivered.exists_senders isPayload
    exact ⟨senders, isList, fun translation isTranslation =>
      delivered.translated isPayload isList isTranslation⟩
  · exact fun allowed => allowed.exists_delivered

/-- Pages and events deliver messages with the same content, and with a content type that tells what
it is, exactly when that is allowed for every message. -/
theorem messagePayloads_iff (details : SenderDetails) (rows : List MessageLanguage)
    (settings : PayloadSettings) (allowEditHistory : Bool) (inaccessibleSenderIds : List ℕ)
    (messages : List FetchedMessage) :
    (∃ payloads, messagesForIds details rows settings allowEditHistory inaccessibleSenderIds
        messages = .ok payloads ∧
      List.Forall₂ (Delivered details rows settings inaccessibleSenderIds) messages payloads) ↔
      ∀ fetched ∈ messages, PayloadAllowed details rows settings inaccessibleSenderIds fetched := by
  rw [messagesForIds, exists_mapM_forall₂_iff]
  exact forall₂_congr fun fetched _ =>
    delivered_iff details rows settings allowEditHistory inaccessibleSenderIds fetched

def plainDetails : SenderDetails :=
  ⟨"Unknown user", fun _ _ _ _ _ _ => none, "/static/images/unknown-user-avatar.png",
    fun _ => "user@zulip.test"⟩

def lunchDict : WideDict :=
  ⟨7, 10, 2, "Iago", "iago@zulip.com", "iago@zulip.com", .everyone, "G", 1, "**lunch**",
    "<p><strong>lunch</strong></p>", none⟩

/-- Without a list of senders, a page with rendered messages fails. -/
example :
    messagesForIds plainDetails [] ⟨true, true, none, none⟩ true []
        [⟨lunchDict, ["read"], none⟩] = .error .notIterable := rfl

/-- A translation replaces the source of a message, and the content type stays. -/
theorem translatedSource_is_html :
    (messagesForIds plainDetails [⟨7, "Vietnamese", some "<p><strong>bữa trưa</strong></p>"⟩]
        ⟨false, true, some [], some "Vietnamese"⟩ true [] [⟨lunchDict, ["read"], none⟩]).map
          (fun payloads => payloads.map fun payload => (payload.contentType, payload.content)) =
      .ok [(.textMarkdown, some (.html "<p><strong>bữa trưa</strong></p>"))] := rfl

end Zulip.Messages
