import TerminalCanvas.Daemon.Wire

/-! # The budget of a payload

A payload within the budget is accepted whatever the rest of its envelope is: the budget
was computed from the longest envelope. -/

namespace TerminalCanvas.Daemon

open HookAuthority

/-! ## Plain texts -/

theorem plain_of_mem_encode {data : Bytes} {character : Char}
    (member : character ∈ Base64.encode data) : Json.Plain character := by
  have digits : ∀ value < 64, Json.Plain (Base64.digit value) := by decide
  rcases List.mem_append.mp (Base64.mem_alphabet_of_mem_encode member) with member | member
  · obtain ⟨value, bound, rfl⟩ := List.mem_map.mp member
    exact digits value (List.mem_range.mp bound)
  · rw [List.mem_singleton.mp member]
    decide

/-! ## Sizes of the parts -/

theorem byteLength_uuidText (id : Uuid) : Json.byteLength (uuidText id) = 38 :=
  Json.byteLength_display id

theorem byteLength_bytesText (data : Bytes) :
    Json.byteLength (bytesText data) = 4 * ((data.length + 2) / 3) + 2 := by
  rw [bytesText, Json.byteLength_string_of_plain fun _ => plain_of_mem_encode,
    Base64.length_encode]

theorem byteLength_hookTargetText (target : HostHookTarget) :
    Json.byteLength (hookTargetText target) =
      Json.byteLength (hookTargetText ⟨.nil, .nil, .nil⟩) := by
  simp only [hookTargetText, Json.byteLength_object, Json.byteLength_member,
    byteLength_uuidText, List.map_cons, List.map_nil, List.length_cons, List.length_nil]

theorem byteLength_seq_le (seq : UInt64) : Json.byteLength (Json.number seq.toNat) ≤ 20 := by
  rw [Json.byteLength_number, Json.number, Nat.length_toDigits_le_iff (by decide) (by decide)]
  exact Nat.lt_trans seq.toNat_lt (by decide)

theorem byteLength_u64Max : 20 ≤ Json.byteLength (Json.number u64Max) := by
  rw [Json.byteLength_number, Json.number]
  apply Nat.lt_of_not_le
  rw [Nat.length_toDigits_le_iff (by decide) (by decide)]
  decide

/-! ## The envelopes -/

theorem jsonLength_eq (response : Response) :
    jsonLength response = (response.members.map Json.byteLength).sum +
      (response.members.length - 1) + 2 :=
  Json.byteLength_object response.members

theorem byteLength_optional_le {Value : Type} {text : Value → List Char} {size : Nat}
    (sizes : ∀ value, Json.byteLength (text value) = size) (value : Option Value) :
    ((value.map text).toList.map Json.byteLength).sum + (value.map text).toList.length ≤
      size + 1 := by
  cases value with
  | none => exact Nat.zero_le _
  | some value =>
      simp only [Option.map_some, Option.toList_some, List.map_cons, List.map_nil,
        List.sum_cons, List.sum_nil, List.length_cons, List.length_nil, sizes]
      omega

theorem jsonLength_attached_le (id : Uuid) (snapshot : Bytes) (seq : UInt64)
    (alive outputReady : Bool) (hookGeneration : Option Uuid)
    (hookTarget : Option HostHookTarget) :
    jsonLength (.attached id snapshot seq.toNat alive outputReady hookGeneration hookTarget) ≤
      jsonLength (.attached id [] u64Max false false (some .nil) (some ⟨.nil, .nil, .nil⟩)) +
        4 * ((snapshot.length + 2) / 3) := by
  have short := byteLength_seq_le seq
  have long := byteLength_u64Max
  have first := Json.byteLength_bool_le alive
  have second := Json.byteLength_bool_le outputReady
  have worst : Json.byteLength (Json.bool false) = 5 := by decide
  have generations : ∀ generation,
      Json.byteLength (Json.member "hook_generation" (uuidText generation)) =
        Json.byteLength (Json.string "hook_generation".toList) + (1 + 38) := by
    intro generation
    rw [Json.byteLength_member, byteLength_uuidText]
  have targets : ∀ target, Json.byteLength (Json.member "hook_target" (hookTargetText target)) =
      Json.byteLength (Json.string "hook_target".toList) +
        (1 + Json.byteLength (hookTargetText ⟨.nil, .nil, .nil⟩)) := by
    intro target
    rw [Json.byteLength_member, byteLength_hookTargetText]
  have generation := byteLength_optional_le generations hookGeneration
  have target := byteLength_optional_le targets hookTarget
  simp only [jsonLength_eq, Response.members, attachedMembers, List.map_append, List.sum_append,
    List.map_cons, List.map_nil, List.sum_cons, List.sum_nil, List.length_append,
    List.length_cons, List.length_nil, Json.byteLength_member, byteLength_bytesText, worst,
    byteLength_uuidText, Option.map_some, Option.toList_some]
  omega

theorem jsonLength_output_le (id : Uuid) (seq : UInt64) (data : Bytes) :
    jsonLength (.output id seq.toNat data) ≤
      jsonLength (.output id u64Max []) + 4 * ((data.length + 2) / 3) := by
  have short := byteLength_seq_le seq
  have long := byteLength_u64Max
  simp only [jsonLength_eq, Response.members, List.map_cons, List.map_nil, List.sum_cons,
    List.sum_nil, List.length_cons, List.length_nil, Json.byteLength_member,
    byteLength_bytesText]
  omega

/-! ## The budget is enough -/

theorem base64_within {length remaining : Nat} (within : length ≤ remaining / 4 * 3) :
    4 * ((length + 2) / 3) ≤ remaining := by
  omega

section

variable {id : Uuid} {limit : Nat}

theorem snapshotPayloadBudget_eq_some {budget : Nat}
    (budgeted : snapshotPayloadBudget jsonLength id limit = some budget) :
    ∃ attached repair,
      attached = jsonLength (.attached id [] u64Max false false (some .nil)
        (some ⟨.nil, .nil, .nil⟩)) + 1 ∧
      repair = jsonLength (.output id u64Max []) + 1 ∧
      max attached repair ≤ limit ∧ budget = (limit - max attached repair) / 4 * 3 := by
  unfold snapshotPayloadBudget at budgeted
  dsimp only at budgeted
  split at budgeted
  · next fits =>
      refine ⟨_, _, rfl, rfl, fits, ?_⟩
      exact (Option.some.inj budgeted).symm
  · cases budgeted

theorem encodesWithin_of_length {response : Response}
    (fits : payloadFits jsonLength response limit = true)
    (within : jsonLength response + 1 ≤ limit) :
    encodesWithin jsonLength response limit = true := by
  have positive : limit ≠ 0 ∧ jsonLength response ≤ limit - 1 := by omega
  rw [encodesWithin, fits, Bool.true_and, Bool.and_eq_true, decide_eq_true_eq,
    decide_eq_true_eq]
  exact positive

theorem encodesWithin_attached {budget : Nat}
    (budgeted : snapshotPayloadBudget jsonLength id limit = some budget) {snapshot : Bytes}
    (within : snapshot.length ≤ budget) (seq : UInt64) (alive outputReady : Bool)
    (hookGeneration : Option Uuid) (hookTarget : Option HostHookTarget) :
    encodesWithin jsonLength
      (.attached id snapshot seq.toNat alive outputReady hookGeneration hookTarget) limit =
      true := by
  have size := jsonLength_attached_le id snapshot seq alive outputReady hookGeneration hookTarget
  apply encodesWithin_of_length
  · rw [payloadFits, budgeted]
    exact decide_eq_true within
  · obtain ⟨attached, repair, attachedSize, -, fits, rfl⟩ :=
      snapshotPayloadBudget_eq_some budgeted
    have encoded := base64_within within
    omega

theorem encodesWithin_output {budget : Nat}
    (budgeted : snapshotPayloadBudget jsonLength id limit = some budget) {data : Bytes}
    (within : data.length ≤ budget) (seq : UInt64) :
    encodesWithin jsonLength (.output id seq.toNat data) limit = true := by
  have size := jsonLength_output_le id seq data
  apply encodesWithin_of_length
  · rw [payloadFits, budgeted]
    exact decide_eq_true within
  · obtain ⟨attached, repair, -, repairSize, fits, rfl⟩ :=
      snapshotPayloadBudget_eq_some budgeted
    have encoded := base64_within within
    omega

end

end TerminalCanvas.Daemon
