import TerminalCanvas.Conversation.ContextText
import TerminalCanvas.Foundation.JsonReading

/-! # Fingerprints of requests

The JSON of a request with what was reviewed of it. It tells requests apart. -/

namespace TerminalCanvas.Conversations

open Json

def requestValue (request : SendRequest) : List Char :=
  object
    [member "operation_id" (idValue request.operationId),
      member "source_id" (idValue request.sourceId),
      member "target_id" (idValue request.targetId),
      member "text" (textValue request.text),
      member "message_ids" (array (request.messageIds.map idValue)),
      member "context_budget_bytes" (number request.contextBudgetBytes)]

def preparedValue (prepared : PreparedSend) : List Char :=
  object
    [member "request" (requestValue prepared.request),
      member "context" (contextValue prepared.context),
      member "target_binding" (optional idValue prepared.targetBinding)]

/-- `serde_json::to_string(&(request, prepared))` -/
def jsonFingerprint (request : SendRequest) (prepared : Option PreparedSend) : String :=
  String.ofList (array [requestValue request, optional preparedValue prepared])

/-! ## Reading the values back -/

theorem determines_textValue : Determines textValue (· = ·) :=
  (determines_string.of String.toList).weaken fun _ _ same => String.toList_injective same

theorem determines_idValue : Determines idValue (· = ·) :=
  (determines_textValue.of Uuid.display).weaken fun _ _ same => Uuid.display_injective same

theorem determines_providerValue : Determines providerValue (· = ·) := by
  have names : ∀ left right, providerName left = providerName right → left = right := by
    intro left right
    cases left <;> cases right <;> decide
  exact (determines_textValue.of providerName).weaken names

theorem determines_role : Determines (fun role => textValue (roleName role)) (· = ·) := by
  have names : ∀ left right, roleName left = roleName right → left = right := by
    intro left right
    cases left <;> cases right <;> decide
  exact (determines_textValue.of roleName).weaken names

theorem starts_textValue : Starts textValue := fun text => starts_string text.toList

theorem starts_idValue : Starts idValue := fun id => starts_textValue id.display

theorem starts_providerValue : Starts providerValue := fun provider =>
  starts_textValue (providerName provider)

theorem determines_originValue : Determines originValue (· = ·) := by
  refine (determines_object
    (.of "provider" MessageOrigin.provider
      (determines_optional determines_providerValue starts_providerValue))
    [.of "native_session_id" MessageOrigin.nativeSessionId
      (determines_optional determines_textValue starts_textValue)]).weaken ?_
  intro left right same
  simp only [List.forall_mem_cons, Field.of] at same
  cases left
  cases right
  simp_all

theorem determines_conversationValue : Determines conversationValue (· = ·) := by
  refine (determines_object
    (.of "id" Conversation.id determines_idValue)
    [.of "workspace_id" Conversation.workspaceId determines_idValue,
      .of "panel_id" Conversation.panelId determines_idValue,
      .of "title" Conversation.title determines_textValue,
      .of "provider" Conversation.provider 
        (determines_optional determines_providerValue starts_providerValue),
      .of "cwd" Conversation.cwd (determines_optional determines_textValue starts_textValue),
      .of "memory_task_id" Conversation.memoryTaskId
        (determines_optional determines_idValue starts_idValue),
      .of "native_session_id" Conversation.nativeSessionId 
        (determines_optional determines_textValue starts_textValue),
      .of "runtime_session_id" Conversation.runtimeSessionId
        (determines_optional determines_idValue starts_idValue),
      .of "binding_id" Conversation.bindingId
        (determines_optional determines_idValue starts_idValue)]).weaken ?_
  intro left right same
  simp only [List.forall_mem_cons, Field.of] at same
  cases left
  cases right
  simp_all

theorem determines_messageValue : Determines messageValue (· = ·) := by
  refine (determines_object
    (.of "id" ConversationMessage.id determines_idValue)
    [.of "sequence" ConversationMessage.sequence determines_number,
      .of "conversation_id" ConversationMessage.conversationId determines_idValue,
      .of "role" ConversationMessage.role determines_role,
      .of "text" ConversationMessage.text determines_textValue,
      .of "source" ConversationMessage.source determines_textValue,
      .of "origin" ConversationMessage.origin determines_originValue,
      .of "created_at" ConversationMessage.createdAt determines_integer]).weaken ?_
  intro left right same
  simp only [List.forall_mem_cons, Field.of] at same
  cases left
  cases right
  simp_all

theorem determines_referenceValue : Determines referenceValue (· = ·) := by
  refine (determines_object
    (.of "id" MessageReference.id determines_idValue)
    [.of "sequence" MessageReference.sequence determines_number,
      .of "role" MessageReference.role determines_role,
      .of "bytes" MessageReference.bytes determines_number]).weaken ?_
  intro left right same
  simp only [List.forall_mem_cons, Field.of] at same
  cases left
  cases right
  simp_all

theorem starts_messageValue : Starts messageValue := starts_object _

theorem starts_referenceValue : Starts referenceValue := starts_object _

theorem determines_contextValue : Determines contextValue (· = ·) := by
  refine (determines_object
    (.of "protocol_version" ContextSnapshot.protocolVersion determines_number)
    [.of "source" ContextSnapshot.source determines_conversationValue,
      .of "messages" ContextSnapshot.messages 
        (determines_array determines_messageValue starts_messageValue),
      .of "omitted" ContextSnapshot.omitted 
        (determines_array determines_referenceValue starts_referenceValue),
      .of "budget_bytes" ContextSnapshot.budgetBytes determines_number,
      .of "used_bytes" ContextSnapshot.usedBytes determines_number]).weaken ?_
  intro left right same
  simp only [List.forall_mem_cons, Field.of] at same
  cases left
  cases right
  simp_all

theorem determines_requestValue : Determines requestValue (· = ·) := by
  refine (determines_object
    (.of "operation_id" SendRequest.operationId determines_idValue)
    [.of "source_id" SendRequest.sourceId determines_idValue,
      .of "target_id" SendRequest.targetId determines_idValue,
      .of "text" SendRequest.text determines_textValue,
      .of "message_ids" SendRequest.messageIds (determines_array determines_idValue starts_idValue),
      .of "context_budget_bytes" SendRequest.contextBudgetBytes determines_number]).weaken ?_
  intro left right same
  simp only [List.forall_mem_cons, Field.of] at same
  cases left
  cases right
  simp_all

theorem determines_preparedValue : Determines preparedValue (· = ·) := by
  refine (determines_object
    (.of "request" PreparedSend.request determines_requestValue)
    [.of "context" PreparedSend.context determines_contextValue,
      .of "target_binding" PreparedSend.targetBinding
        (determines_optional determines_idValue starts_idValue)]).weaken ?_
  intro left right same
  simp only [List.forall_mem_cons, Field.of] at same
  cases left
  cases right
  simp_all

theorem starts_preparedValue : Starts preparedValue := starts_object _

theorem jsonFingerprint_injective {request other : SendRequest}
    {prepared otherPrepared : Option PreparedSend}
    (same : jsonFingerprint request prepared = jsonFingerprint other otherPrepared) :
    request = other ∧ prepared = otherPrepared := by
  have texts := String.ofList_injective same
  unfold array separated at texts
  simp only [List.cons_append, List.cons.injEq, true_and, List.append_assoc, List.flatMap_cons,
    List.flatMap_nil, List.nil_append] at texts
  obtain ⟨rfl, rests⟩ := determines_requestValue request other _ _ (ends_comma _) (ends_comma _)
    texts
  obtain ⟨rfl, -⟩ := determines_optional determines_preparedValue starts_preparedValue prepared
    otherPrepared _ _ (ends_bracket _) (ends_bracket _) (List.cons.inj rests).2
  exact ⟨rfl, rfl⟩

end TerminalCanvas.Conversations
