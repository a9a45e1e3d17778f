import TerminalCanvas.Conversation.Store
import TerminalCanvas.Foundation.Json
import TerminalCanvas.Foundation.Settling

/-! # The text of a context

The JSON of a context snapshot, which holds its own length, and the measuring of it. -/

namespace TerminalCanvas.Conversations

open Json (byteLength_object byteLength_separated byteLength_append byteLength_cons)

/-! ## Texts -/

def providerName : AgentProvider → String
  | .claudeCode => "ClaudeCode"
  | .codexCli => "CodexCli"
  | .geminiCli => "GeminiCli"
  | .aider => "Aider"
  | .openCode => "OpenCode"
  | .cursorAgent => "CursorAgent"
  | .copilot => "Copilot"
  | .goose => "Goose"
  | .amp => "Amp"
  | .crush => "Crush"
  | .unknown => "Unknown"

def roleName : MessageRole → String
  | .user => "user"
  | .assistant => "assistant"
  | .context => "context"
  | .activity => "activity"

def textValue (text : String) : List Char := Json.string text.toList

def idValue (id : Uuid) : List Char := textValue id.display

def providerValue (provider : AgentProvider) : List Char := textValue (providerName provider)

def originValue (origin : MessageOrigin) : List Char :=
  Json.object
    [Json.member "provider" (Json.optional providerValue origin.provider),
      Json.member "native_session_id" (Json.optional textValue origin.nativeSessionId)]

def conversationValue (conversation : Conversation) : List Char :=
  Json.object
    [Json.member "id" (idValue conversation.id),
      Json.member "workspace_id" (idValue conversation.workspaceId),
      Json.member "panel_id" (idValue conversation.panelId),
      Json.member "title" (textValue conversation.title),
      Json.member "provider" (Json.optional providerValue conversation.provider),
      Json.member "cwd" (Json.optional textValue conversation.cwd),
      Json.member "memory_task_id" (Json.optional idValue conversation.memoryTaskId),
      Json.member "native_session_id" (Json.optional textValue conversation.nativeSessionId),
      Json.member "runtime_session_id" (Json.optional idValue conversation.runtimeSessionId),
      Json.member "binding_id" (Json.optional idValue conversation.bindingId)]

def messageValue (message : ConversationMessage) : List Char :=
  Json.object
    [Json.member "id" (idValue message.id),
      Json.member "sequence" (Json.number message.sequence),
      Json.member "conversation_id" (idValue message.conversationId),
      Json.member "role" (textValue (roleName message.role)),
      Json.member "text" (textValue message.text),
      Json.member "source" (textValue message.source),
      Json.member "origin" (originValue message.origin),
      Json.member "created_at" (Json.integer message.createdAt)]

def referenceValue (reference : MessageReference) : List Char :=
  Json.object
    [Json.member "id" (idValue reference.id),
      Json.member "sequence" (Json.number reference.sequence),
      Json.member "role" (textValue (roleName reference.role)),
      Json.member "bytes" (Json.number reference.bytes)]

def contextValue (context : ContextSnapshot) : List Char :=
  Json.object
    [Json.member "protocol_version" (Json.number context.protocolVersion),
      Json.member "source" (conversationValue context.source),
      Json.member "messages" (Json.array (context.messages.map messageValue)),
      Json.member "omitted" (Json.array (context.omitted.map referenceValue)),
      Json.member "budget_bytes" (Json.number context.budgetBytes),
      Json.member "used_bytes" (Json.number context.usedBytes)]

def Codec.json (codec : Codec) : Codec :=
  { codec with contextBytes := fun context => Json.byteLength (contextValue context) }

/-! ## Sizes -/

def digits (value : Nat) : Nat := (Json.number value).length

/-- The length of a list of values with the commas between them. -/
def listBytes (texts : List (List Char)) : Nat :=
  (texts.map Json.byteLength).sum + (texts.length - 1)

/-- The length of a context without the digits of its own length. -/
def baseBytes (context : ContextSnapshot) : Nat :=
  Json.byteLength (Json.member "protocol_version" (Json.number context.protocolVersion)) +
    Json.byteLength (Json.member "source" (conversationValue context.source)) +
    (Json.byteLength (Json.string "messages".toList) + 3 +
      listBytes (context.messages.map messageValue)) +
    (Json.byteLength (Json.string "omitted".toList) + 3 +
      listBytes (context.omitted.map referenceValue)) +
    Json.byteLength (Json.member "budget_bytes" (Json.number context.budgetBytes)) +
    (Json.byteLength (Json.string "used_bytes".toList) + 1) + 7

theorem byteLength_array (items : List (List Char)) :
    Json.byteLength (Json.array items) = listBytes items + 2 := by
  rw [Json.array, byteLength_append, byteLength_cons (by decide), byteLength_separated, listBytes]
  have closing : Json.byteLength [']'] = 1 := rfl
  omega

theorem byteLength_contextValue (context : ContextSnapshot) :
    Json.byteLength (contextValue context) = baseBytes context + digits context.usedBytes := by
  unfold contextValue baseBytes
  rw [byteLength_object]
  simp only [List.map_cons, List.map_nil, List.sum_cons, List.sum_nil, List.length_cons,
    List.length_nil, Json.byteLength_member "messages", Json.byteLength_member "omitted",
    Json.byteLength_member "used_bytes", byteLength_array, Json.byteLength_number context.usedBytes]
  unfold digits
  omega

theorem contextBytes_json (codec : Codec) (context : ContextSnapshot) :
    codec.json.contextBytes context = baseBytes context + digits context.usedBytes :=
  byteLength_contextValue context

theorem listBytes_perm {texts others : List (List Char)} (perm : texts.Perm others) :
    listBytes texts = listBytes others := by
  rw [listBytes, listBytes, (perm.map _).sum_nat, perm.length_eq]

theorem baseBytes_perm {context : ContextSnapshot} {messages : List ConversationMessage}
    {omitted : List MessageReference} (messagePerm : messages.Perm context.messages)
    (omittedPerm : omitted.Perm context.omitted) :
    baseBytes { context with messages := messages, omitted := omitted } = baseBytes context := by
  unfold baseBytes
  rw [listBytes_perm (messagePerm.map messageValue),
    listBytes_perm (omittedPerm.map referenceValue)]

/-! ## Digits -/

theorem digits_le_iff {value count : Nat} (positive : 0 < count) :
    digits value ≤ count ↔ value < 10 ^ count :=
  Nat.length_toDigits_le_iff (by decide) positive

theorem digits_pos (value : Nat) : 0 < digits value := Nat.length_toDigits_pos

theorem digits_mono : Monotone digits := by
  intro low high below
  rw [digits_le_iff (digits_pos high)]
  exact lt_of_le_of_lt below ((digits_le_iff (digits_pos high)).mp (le_refl _))

theorem digits_le_half (value : Nat) : digits value ≤ value / 2 + 1 := by
  rw [digits_le_iff (by omega), Nat.pow_succ]
  have grows : value / 2 < 10 ^ (value / 2) := Nat.lt_pow_self (by decide)
  omega

/-- What stands for a message that is left out. -/
def referenceOf (id : Uuid) (message : ConversationMessage) : MessageReference :=
  ⟨id, message.sequence, message.role, byteLength message.text⟩

/-- The length of a text of a base length that holds a number. -/
def lengthWith (base value : Nat) : Nat := base + digits value

theorem lengthWith_mono (base : Nat) : Monotone (lengthWith base) := fun _ _ below =>
  Nat.add_le_add_left (digits_mono below) base

/-! ## Measuring -/

/-- The loop of `measure_context`, to its end. -/
inductive Measures (codec : Codec) : ContextSnapshot → ContextSnapshot → Prop
  | done {context} : codec.contextBytes context = context.usedBytes → Measures codec context context
  | again {context result} : codec.contextBytes context ≠ context.usedBytes →
      Measures codec { context with usedBytes := codec.contextBytes context } result →
      Measures codec context result

theorem measureContext_eq (codec : Codec) (rounds : Nat) (context : ContextSnapshot) :
    measureContext codec.json rounds context = { context with
      usedBytes := Settling.settle (lengthWith (baseBytes context)) rounds context.usedBytes } := by
  induction rounds generalizing context with
  | zero => rfl
  | succ rounds induction =>
      rw [measureContext, Settling.settle, contextBytes_json]
      unfold lengthWith
      split
      · rfl
      · exact induction _

theorem settlesAt_measured (codec : Codec) (context : ContextSnapshot) :
    Settling.SettlesAt (lengthWith (baseBytes context)) context.usedBytes
      (measured codec.json context).usedBytes := by
  have positive := digits_pos context.usedBytes
  have lowers : ∀ other, 2 * baseBytes context + 2 ≤ other →
      lengthWith (baseBytes context) other ≤ other := by
    intro other beyond
    have half := digits_le_half other
    unfold lengthWith
    omega
  unfold measured
  rw [measureContext_eq]
  refine Settling.settles (lengthWith_mono _) lowers ?_
  rw [measureRounds, contextBytes_json]
  omega

theorem measured_eq (codec : Codec) (context : ContextSnapshot) :
    measured codec.json context =
      { context with usedBytes := (measured codec.json context).usedBytes } := by
  unfold measured
  rw [measureContext_eq]

theorem measured_exact (codec : Codec) (context : ContextSnapshot) :
    (measured codec.json context).usedBytes =
      Json.byteLength (contextValue (measured codec.json context)) := by
  rw [byteLength_contextValue]
  have fixed := (settlesAt_measured codec context).fixed
  rw [measured_eq]
  exact fixed.symm

theorem measures_of_fixed {codec : Codec} (rounds : Nat) (context : ContextSnapshot)
    (fixed : codec.contextBytes (measureContext codec rounds context) =
      (measureContext codec rounds context).usedBytes) :
    Measures codec context (measureContext codec rounds context) := by
  induction rounds generalizing context with
  | zero => exact .done fixed
  | succ rounds induction =>
      rw [measureContext] at fixed ⊢
      split at fixed
      · next stays =>
          rw [if_pos stays]
          exact .done stays
      · next moves =>
          rw [if_neg moves]
          exact .again moves (induction _ fixed)

theorem measures_measured (codec : Codec) (context : ContextSnapshot) :
    Measures codec.json context (measured codec.json context) :=
  measures_of_fixed _ context (measured_exact codec context).symm

end TerminalCanvas.Conversations
