import Mathlib.Data.List.Induction
import TerminalCanvas.Collab.Traffic

/-! # Rotating the invite rotates the key

A rotation that the broker confirmed gives the session a key that no earlier invite code
carried, provided that the notice to the guests can be put on the transport. Without the
notice the session goes on under the old key, and so does the new invite. -/

namespace TerminalCanvas.Collab.Sharing

open Execution

namespace CollabManager

variable (foreign : Foreign)

/-! ## Histories -/

/-- All secrets drawn at random for the inputs of a run. -/
def drawnSecrets (inputs : List Input) : List String := inputs.flatMap (·.call.drawn)

/-- The host had an invite code with this key at some point of the run. -/
def Issued (brokerUrl : String) (inputs : List Input) (key : String) : Prop :=
  ∃ earlier later host, inputs = earlier ++ later ∧
    (reached foreign brokerUrl earlier).host = some host ∧ host.inviteCode.sessionSecret = key

/-- Where the secrets of a run are: the invite codes show some of those that were drawn,
and the rotations that wait have others. -/
structure Accounted (brokerUrl : String) (inputs : List Input) : Prop where
  current : (reached foreign brokerUrl inputs).InviteCurrent
  issued : ∀ key, Issued foreign brokerUrl inputs key → key ∈ drawnSecrets inputs
  pending : ∀ secret ∈ pendingSecrets (reached foreign brokerUrl inputs).jobs,
    secret ∈ drawnSecrets inputs ∧ ¬ Issued foreign brokerUrl inputs secret
  distinct : (pendingSecrets (reached foreign brokerUrl inputs).jobs).Nodup

variable {foreign}

theorem keySpec_reached (brokerUrl : String) (inputs : List Input) (input : Input) :
    KeySpec ((reached foreign brokerUrl inputs).facing input.attempts) input.call
      (reached foreign brokerUrl (inputs ++ [input])) := by
  rw [reached_append_singleton]
  exact keySpec_perform _ _

theorem Issued.of_keys {brokerUrl : String} {inputs : List Input} {secret key : String}
    (keyed : (reached foreign brokerUrl inputs).keys = some (secret, key)) :
    Issued foreign brokerUrl inputs key := by
  obtain ⟨host, hosting, same⟩ := Option.map_eq_some_iff.mp keyed
  exact ⟨inputs, [], host, (List.append_nil inputs).symm, hosting, congrArg Prod.snd same⟩

theorem issued_append_singleton {brokerUrl : String} {inputs : List Input} {input : Input}
    {key : String} (issued : Issued foreign brokerUrl (inputs ++ [input]) key) :
    Issued foreign brokerUrl inputs key ∨
      ∃ secret, (reached foreign brokerUrl (inputs ++ [input])).keys = some (secret, key) := by
  obtain ⟨earlier, later, host, split, hosting, inInvite⟩ := issued
  rcases List.eq_nil_or_concat later with rfl | ⟨later, last, rfl⟩
  · rw [List.append_nil] at split
    exact .inr ⟨host.sessionSecret, by rw [split, keys, hosting, ← inInvite]; rfl⟩
  · rw [List.concat_eq_append, ← List.append_assoc] at split
    exact .inl ⟨earlier, later, host, (List.append_inj' split rfl).1, hosting, inInvite⟩

/-! ## Drawn secrets are used once -/

theorem accounted_nil (brokerUrl : String) :
    Accounted foreign brokerUrl [] := by
  refine ⟨?_, ?_, ?_, ?_⟩
  · intro secret inInvite keyed
    cases keyed
  · rintro key ⟨earlier, later, host, split, hosting, -⟩
    obtain ⟨rfl, -⟩ := List.append_eq_nil_iff.mp split.symm
    cases hosting
  · intro secret member
    cases member
  · exact .nil

theorem drawnSecrets_append_singleton (inputs : List Input) (input : Input) :
    drawnSecrets (inputs ++ [input]) = drawnSecrets inputs ++ input.call.drawn := by
  simp [drawnSecrets]

theorem Accounted.step {brokerUrl : String} {inputs : List Input} {input : Input}
    (accounted : Accounted foreign brokerUrl inputs)
    (distinct : (drawnSecrets (inputs ++ [input])).Nodup) :
    Accounted foreign brokerUrl (inputs ++ [input]) := by
  rw [drawnSecrets_append_singleton] at distinct
  obtain ⟨-, drawnDistinct, apart⟩ := List.nodup_append.mp distinct
  have new : ∀ secret ∈ input.call.drawn, secret ∉ drawnSecrets inputs :=
    fun secret drawn before => apart secret before secret drawn rfl
  have step := (@keySpec_reached foreign brokerUrl inputs input).step accounted.current
  refine ⟨step.current accounted.current, ?_, ?_, ?_⟩
  · intro key issued
    rw [drawnSecrets_append_singleton, List.mem_append]
    rcases issued_append_singleton issued with before | ⟨secret, keyed⟩
    · exact .inl (accounted.issued key before)
    · cases step with
      | kept same pending =>
          rw [same] at keyed
          exact .inl (accounted.issued key (.of_keys keyed))
      | left changes gone pending =>
          rw [gone] at keyed
          cases keyed
      | started start called begun pending =>
          rw [begun] at keyed
          cases keyed
          exact .inr (by simp [called, Call.drawn])
      | rotated host newSessionSecret confirms renewed pending =>
          rw [renewed] at keyed
          cases keyed
          exact .inl (accounted.pending _ (pending.symm.subset (List.mem_cons_self ..))).1
  · intro secret waits
    rw [drawnSecrets_append_singleton, List.mem_append]
    cases step with
    | kept same pending =>
        have unissued : ¬ Issued foreign brokerUrl inputs secret := by
          intro issued
          rcases List.mem_append.mp (pending.subset waits) with before | drawn
          · exact (accounted.pending secret before).2 issued
          · exact new secret drawn (accounted.issued secret issued)
        refine ⟨(List.mem_append.mp (pending.subset waits)).imp_left
          fun before => (accounted.pending secret before).1, ?_⟩
        intro issued
        rcases issued_append_singleton issued with before | ⟨current, keyed⟩
        · exact unissued before
        · exact unissued (.of_keys (same ▸ keyed))
    | left changes gone pending =>
        rw [pending] at waits
        refine ⟨.inl (accounted.pending secret waits).1, ?_⟩
        intro issued
        rcases issued_append_singleton issued with before | ⟨current, keyed⟩
        · exact (accounted.pending secret waits).2 before
        · rw [gone] at keyed
          cases keyed
    | started start called begun pending =>
        rw [pending] at waits
        refine ⟨.inl (accounted.pending secret waits).1, ?_⟩
        intro issued
        rcases issued_append_singleton issued with before | ⟨current, keyed⟩
        · exact (accounted.pending secret waits).2 before
        · rw [begun] at keyed
          cases keyed
          exact new start.sessionSecret (by simp [called, Call.drawn])
            (accounted.pending _ waits).1
    | rotated host newSessionSecret confirms renewed pending =>
        have waited := pending.symm.subset (List.mem_cons_of_mem _ waits)
        refine ⟨.inl (accounted.pending secret waited).1, ?_⟩
        intro issued
        rcases issued_append_singleton issued with before | ⟨current, keyed⟩
        · exact (accounted.pending secret waited).2 before
        · rw [renewed] at keyed
          cases keyed
          exact (List.nodup_cons.mp (pending.nodup accounted.distinct)).1 waits
  · cases step with
    | kept same pending =>
        refine pending.nodup (List.nodup_append.mpr ⟨accounted.distinct, drawnDistinct, ?_⟩)
        rintro secret waits _ drawn rfl
        exact new secret drawn (accounted.pending secret waits).1
    | left changes gone pending => exact pending ▸ accounted.distinct
    | started start called begun pending => exact pending ▸ accounted.distinct
    | rotated host newSessionSecret confirms renewed pending =>
        exact (List.nodup_cons.mp (pending.nodup accounted.distinct)).2

theorem accounted_of_nodup (brokerUrl : String) (inputs : List Input)
    (distinct : (drawnSecrets inputs).Nodup) : Accounted foreign brokerUrl inputs := by
  induction inputs using List.reverseRecOn with
  | nil => exact accounted_nil brokerUrl
  | append_singleton inputs input induction =>
      have before : (drawnSecrets inputs).Nodup := by
        rw [drawnSecrets_append_singleton] at distinct
        exact (List.nodup_append.mp distinct).1
      exact (induction before).step distinct

/-! ## Traffic since a point of the run -/

/-- All that the host sent since, notices apart, went out under good keys. -/
def SentUnder (manager : CollabManager) (sentBefore : Nat) (Good : String → Prop) : Prop :=
  sentBefore ≤ manager.transport.sent.length ∧
    ∀ outbound ∈ manager.transport.sent.drop sentBefore, outbound.sender = .host →
      outbound.payload.isRekey = false → Good outbound.secret

variable {manager next : CollabManager} {sentBefore : Nat} {Good : String → Prop}

theorem SentUnder.step (sent : manager.SentUnder sentBefore Good)
    (traffic : manager.HostTraffic next.transport)
    (good : ∀ host, manager.host = some host → Good host.sessionSecret) :
    next.SentUnder sentBefore Good := by
  obtain ⟨bound, holds⟩ := sent
  obtain ⟨new, split, known⟩ := traffic
  rw [SentUnder, split]
  refine ⟨by rw [List.length_append]; omega, ?_⟩
  rw [List.drop_append_of_le_length bound]
  intro outbound member ofHost traffic
  rcases List.mem_append.mp member with earlier | later
  · exact holds outbound earlier ofHost traffic
  · obtain ⟨host, hosting, sealedUnder⟩ := known outbound later ofHost traffic
    rw [sealedUnder]
    exact good host hosting

/-- Every key in use, in an invite code or on its way to the broker, is good. -/
structure Keeps (Good : String → Prop) (sentBefore : Nat) (manager : CollabManager) : Prop where
  current : manager.InviteCurrent
  secret : ∀ secret inInvite, manager.keys = some (secret, inInvite) → Good secret
  pending : ∀ secret ∈ pendingSecrets manager.jobs, Good secret
  sent : manager.SentUnder sentBefore Good

theorem Keeps.step {call : Call} (keeps : Keeps Good sentBefore manager)
    (spec : KeySpec manager call next) (drawn : ∀ secret ∈ call.drawn, Good secret) :
    Keeps Good sentBefore next := by
  have step := spec.step keeps.current
  have sent : next.SentUnder sentBefore Good := by
    apply keeps.sent.step spec.traffic
    intro host hosting
    exact keeps.secret host.sessionSecret host.inviteCode.sessionSecret
      (by rw [keys, hosting, Option.map_some])
  refine ⟨step.current keeps.current, ?_, ?_, sent⟩
  · intro secret inInvite keyed
    cases step with
    | kept same pending => exact keeps.secret secret inInvite (same ▸ keyed)
    | left changes gone pending =>
        rw [gone] at keyed
        cases keyed
    | started start called begun pending =>
        rw [begun] at keyed
        cases keyed
        exact drawn _ (by simp [called, Call.drawn])
    | rotated before newSessionSecret confirms renewed pending =>
        rw [renewed] at keyed
        cases keyed
        exact keeps.pending _ (pending.symm.subset (List.mem_cons_self ..))
  · intro secret waits
    cases step with
    | kept same pending =>
        rcases List.mem_append.mp (pending.subset waits) with before | new
        · exact keeps.pending secret before
        · exact drawn secret new
    | left changes gone pending => exact keeps.pending secret (pending ▸ waits)
    | started start called begun pending => exact keeps.pending secret (pending ▸ waits)
    | rotated before newSessionSecret confirms renewed pending =>
        exact keeps.pending secret (pending.symm.subset (List.mem_cons_of_mem _ waits))

theorem sentUnder_of_grows_rekey
    (grows : manager.transport.Grows (·.payload.isRekey = true) next.transport) :
    next.SentUnder manager.transport.sent.length Good := by
  obtain ⟨new, split, notices⟩ := grows
  rw [SentUnder, split]
  refine ⟨by rw [List.length_append]; omega, ?_⟩
  rw [List.drop_left]
  intro outbound member _ traffic
  rw [notices outbound member] at traffic
  cases traffic

theorem Keeps.run {middle : List Input} (keeps : Keeps Good sentBefore manager)
    (drawn : ∀ secret ∈ drawnSecrets middle, Good secret) :
    Keeps Good sentBefore ((machine foreign).run manager middle) := by
  induction middle generalizing manager with
  | nil => exact keeps
  | cons input middle induction =>
      rw [drawnSecrets, List.flatMap_cons] at drawn
      have facing : Keeps Good sentBefore (manager.facing input.attempts) :=
        ⟨keeps.current, keeps.secret, keeps.pending, keeps.sent⟩
      have next := facing.step (@keySpec_perform foreign _ input.call)
        fun secret member => drawn secret (List.mem_append_left _ member)
      exact induction next fun secret member => drawn secret (List.mem_append_right _ member)

/-- The call ends or begins a session, or confirms another rotation. -/
def ChangesKey (manager : CollabManager) (input : Input) : Prop :=
  input.call.changesSession = true ∨
    ∃ host newSessionSecret, manager.ConfirmsRotation input.call host newSessionSecret

/-- The host and its invite code have this key, and nothing went out under another one. -/
structure InUse (key : String) (sentBefore : Nat) (manager : CollabManager) : Prop where
  keyed : manager.keys = some (key, key)
  sent : manager.SentUnder sentBefore (· = key)

theorem InUse.step {key : String} {input : Input} (inUse : InUse key sentBefore manager)
    (settled : ¬ manager.ChangesKey input) :
    InUse key sentBefore ((machine foreign).next manager input) := by
  have spec : KeySpec (manager.facing input.attempts) input.call
    ((machine foreign).next manager input) := keySpec_perform _ _
  have current : (manager.facing input.attempts).InviteCurrent := by
    intro secret inInvite keyed
    have same : some (key, key) = some (secret, inInvite) := inUse.keyed.symm.trans keyed
    cases same
    rfl
  have sent : ((machine foreign).next manager input).SentUnder sentBefore (· = key) := by
    have facing : (manager.facing input.attempts).SentUnder sentBefore (· = key) := inUse.sent
    apply facing.step spec.traffic
    intro host hosting
    have keyed : manager.keys = some (host.sessionSecret, host.inviteCode.sessionSecret) :=
      congrArg (Option.map _) hosting
    rw [inUse.keyed] at keyed
    exact (congrArg Prod.fst (Option.some.inj keyed)).symm
  refine ⟨?_, sent⟩
  cases spec.step current with
  | kept same pending => exact same.trans inUse.keyed
  | left changes gone pending => exact absurd (.inl changes) settled
  | started start called begun pending => exact absurd (.inl (by rw [called]; rfl)) settled
  | rotated host newSessionSecret confirms renewed pending =>
      exact absurd (.inr ⟨host, newSessionSecret, confirms⟩) settled

/-! ## The rotation -/

/-- From the confirmation of a rotation on, no key of an earlier invite code is in use, and
until the next change of the key it is the new one. -/
def RotatesKey (foreign : Foreign) (brokerUrl : String) (before : List Input) (input : Input)
    (after : List Input) (newSessionSecret : String) : Prop :=
  let sentBefore := (reached foreign brokerUrl before).transport.sent.length
  ∀ middle rest, after = middle ++ rest →
    let manager := reached foreign brokerUrl (before ++ input :: middle)
    (∀ host, manager.host = some host →
      ¬ Issued foreign brokerUrl before host.sessionSecret ∧
        ¬ Issued foreign brokerUrl before host.inviteCode.sessionSecret) ∧
      manager.SentUnder sentBefore (¬ Issued foreign brokerUrl before ·) ∧
      ((machine foreign).Admits (fun manager input => ¬ manager.ChangesKey input)
          (reached foreign brokerUrl (before ++ [input])) middle →
        (∃ host, manager.host = some host ∧ host.sessionSecret = newSessionSecret ∧
          host.inviteCode.sessionSecret = newSessionSecret) ∧
        manager.SentUnder sentBefore (· = newSessionSecret))

section Rotation

variable {brokerUrl : String} {before : List Input} {input : Input}
variable {host : HostSessionContext} {newSessionSecret : String}

theorem keys_after_rotation
    (confirms : (reached foreign brokerUrl before).ConfirmsRotation input.call host
      newSessionSecret)
    (queued : ((reached foreign brokerUrl before).facing input.attempts).noticeQueued foreign
      host newSessionSecret = true) :
    (reached foreign brokerUrl (before ++ [input])).keys =
      some (newSessionSecret, newSessionSecret) := by
  rw [reached_append_singleton, @keys_of_confirms foreign
    ((reached foreign brokerUrl before).facing input.attempts) _ _ _ confirms, queued]
  rfl

theorem fresh_of_confirms (accounted : Accounted foreign brokerUrl before)
    (confirms : (reached foreign brokerUrl before).ConfirmsRotation input.call host
      newSessionSecret) : ¬ Issued foreign brokerUrl before newSessionSecret := by
  have waited := @pendingSecrets_of_confirms foreign _ _ _ _ confirms
  exact (accounted.pending _ (waited.symm.subset (List.mem_cons_self ..))).2

theorem keeps_after_rotation (accounted : Accounted foreign brokerUrl before)
    (confirms : (reached foreign brokerUrl before).ConfirmsRotation input.call host
      newSessionSecret)
    (queued : ((reached foreign brokerUrl before).facing input.attempts).noticeQueued foreign
      host newSessionSecret = true) :
    Keeps (¬ Issued foreign brokerUrl before ·)
      (reached foreign brokerUrl before).transport.sent.length
      (reached foreign brokerUrl (before ++ [input])) := by
  have spec := @keySpec_reached foreign brokerUrl before input
  have waited := @pendingSecrets_of_confirms foreign
    ((reached foreign brokerUrl before).facing input.attempts) _ _ _ confirms
  rw [← reached_append_singleton] at waited
  have keyed := keys_after_rotation confirms queued
  refine ⟨(spec.step accounted.current).current accounted.current, ?_, ?_, ?_⟩
  · intro secret inInvite current
    rw [keyed] at current
    cases current
    exact fresh_of_confirms accounted confirms
  · intro secret waits
    exact (accounted.pending secret (waited.symm.subset (List.mem_cons_of_mem _ waits))).2
  · apply sentUnder_of_grows_rekey
    rw [reached_append_singleton]
    exact @grows_of_confirms foreign
      ((reached foreign brokerUrl before).facing input.attempts) _ _ _ confirms

theorem inUse_after_rotation
    (confirms : (reached foreign brokerUrl before).ConfirmsRotation input.call host
      newSessionSecret)
    (queued : ((reached foreign brokerUrl before).facing input.attempts).noticeQueued foreign
      host newSessionSecret = true) :
    InUse newSessionSecret (reached foreign brokerUrl before).transport.sent.length
      (reached foreign brokerUrl (before ++ [input])) := by
  refine ⟨keys_after_rotation confirms queued, ?_⟩
  apply sentUnder_of_grows_rekey
  rw [reached_append_singleton]
  exact @grows_of_confirms foreign
    ((reached foreign brokerUrl before).facing input.attempts) _ _ _ confirms

theorem rotatesKey_of_queued {after : List Input}
    (confirms : (reached foreign brokerUrl before).ConfirmsRotation input.call host
      newSessionSecret)
    (distinct : (drawnSecrets (before ++ input :: after)).Nodup)
    (queued : ((reached foreign brokerUrl before).facing input.attempts).noticeQueued foreign
      host newSessionSecret = true) :
    RotatesKey foreign brokerUrl before input after newSessionSecret := by
  rw [drawnSecrets, List.flatMap_append, List.flatMap_cons] at distinct
  obtain ⟨beforeDistinct, -, apart⟩ := List.nodup_append.mp distinct
  have accounted := @accounted_of_nodup foreign brokerUrl before beforeDistinct
  rintro middle rest rfl
  have drawn : ∀ secret ∈ drawnSecrets middle, ¬ Issued foreign brokerUrl before secret := by
    intro secret later issued
    refine apart secret (accounted.issued secret issued) secret ?_ rfl
    rw [List.flatMap_append]
    exact List.mem_append_right _ (List.mem_append_left _ later)
  have keeps := @Keeps.run foreign _ _ _ middle
    (keeps_after_rotation accounted confirms queued) drawn
  dsimp only
  rw [reached_append_cons]
  refine ⟨?_, keeps.sent, ?_⟩
  · intro host hosting
    have keyed := congrArg (Option.map fun host : HostSessionContext =>
      (host.sessionSecret, host.inviteCode.sessionSecret)) hosting
    have good := keeps.secret _ _ keyed
    exact ⟨good, by rw [keeps.current _ _ keyed]; exact good⟩
  · intro settled
    have inUse := settled.invariant _ (InUse newSessionSecret
      (reached foreign brokerUrl before).transport.sent.length)
      (fun manager input allowed inUse => inUse.step allowed)
      (inUse_after_rotation confirms queued)
    obtain ⟨host, hosting, same⟩ := Option.map_eq_some_iff.mp inUse.keyed
    exact ⟨⟨host, hosting, congrArg Prod.fst same, congrArg Prod.snd same⟩, inUse.sent⟩

theorem not_rotatesKey_of_refused {after : List Input}
    (confirms : (reached foreign brokerUrl before).ConfirmsRotation input.call host
      newSessionSecret)
    (current : (reached foreign brokerUrl before).InviteCurrent)
    (refused : ((reached foreign brokerUrl before).facing input.attempts).noticeQueued foreign
      host newSessionSecret = false) :
    ¬ RotatesKey foreign brokerUrl before input after newSessionSecret := by
  intro rotates
  have keyed : (reached foreign brokerUrl (before ++ [input])).keys =
      some (host.sessionSecret, host.sessionSecret) := by
    rw [reached_append_singleton, @keys_of_confirms foreign
      ((reached foreign brokerUrl before).facing input.attempts) _ _ _ confirms, refused]
    rfl
  obtain ⟨-, -, -, -, -, -, -, -, hosting⟩ := confirms
  have keyedBefore : (reached foreign brokerUrl before).keys =
      some (host.sessionSecret, host.inviteCode.sessionSecret) := by
    rw [keys, hosting, Option.map_some]
  have issued := Issued.of_keys keyedBefore
  rw [current _ _ keyedBefore] at issued
  obtain ⟨later, hostingLater, same⟩ := Option.map_eq_some_iff.mp keyed
  apply ((rotates [] after rfl).1 later hostingLater).1
  rw [show later.sessionSecret = host.sessionSecret from congrArg Prod.fst same]
  exact issued

end Rotation

/-- A confirmed rotation of the invite rotates the key exactly when the notice to the guests
can be put on the transport. Drawn at random, no secret comes twice. -/
theorem rotation_rotates_key (foreign : Foreign) (brokerUrl : String) (before : List Input)
    (input : Input) (after : List Input) (host : HostSessionContext) (newSessionSecret : String)
    (confirms : (reached foreign brokerUrl before).ConfirmsRotation input.call host
      newSessionSecret)
    (distinct : (drawnSecrets (before ++ input :: after)).Nodup) :
    RotatesKey foreign brokerUrl before input after newSessionSecret ↔
      ((reached foreign brokerUrl before).facing input.attempts).noticeQueued foreign host
        newSessionSecret = true := by
  constructor
  · intro rotates
    cases queued : ((reached foreign brokerUrl before).facing input.attempts).noticeQueued
        foreign host newSessionSecret with
    | true => rfl
    | false =>
        have beforeDistinct : (drawnSecrets before).Nodup := by
          rw [drawnSecrets, List.flatMap_append] at distinct
          exact (List.nodup_append.mp distinct).1
        have current := (@accounted_of_nodup foreign brokerUrl before
          beforeDistinct).current
        exact absurd rotates (not_rotatesKey_of_refused confirms current queued)
  · exact rotatesKey_of_queued confirms distinct

def renewedSecret : String := "11111111111111111111111111111111"

def askedRotation : List Input :=
  [⟨.startHostSession (some sampleStart), []⟩,
    ⟨.rotateInvite "second invite" renewedSecret none, []⟩]

def confirmation (attempts : List Attempt) : Input := ⟨.jobDone 0 .ok 0, attempts⟩

theorem confirms_askedRotation (attempts : List Attempt) :
    (reached plainForeign "https://broker" askedRotation).ConfirmsRotation
      (confirmation attempts).call (.new sampleStart) renewedSecret :=
  ⟨0, .ok, 0, "second invite", none, rfl, rfl, by simp, rfl⟩

theorem sample_rotation_rotates_key :
    RotatesKey plainForeign "https://broker" askedRotation
      (confirmation [⟨List.replicate 24 0, true⟩]) [] renewedSecret :=
  (rotation_rotates_key plainForeign "https://broker" askedRotation
    (confirmation [⟨List.replicate 24 0, true⟩]) [] (.new sampleStart) renewedSecret
    (confirms_askedRotation _) (by decide)).mpr (by decide +kernel)

/-- The transport refuses the notice, and the new invite code carries the old key. -/
theorem refused_notice_keeps_key :
    (reached plainForeign "https://broker" askedRotation).ConfirmsRotation
        (confirmation []).call (.new sampleStart) renewedSecret ∧
      (drawnSecrets (askedRotation ++ [confirmation []])).Nodup ∧
      ¬ RotatesKey plainForeign "https://broker" askedRotation (confirmation []) []
        renewedSecret := by
  have current : (reached plainForeign "https://broker" askedRotation).InviteCurrent := by
    intro secret inInvite keyed
    cases keyed
    rfl
  exact ⟨confirms_askedRotation _, by decide,
    not_rotatesKey_of_refused (confirms_askedRotation _) current (by decide +kernel)⟩

end CollabManager

end TerminalCanvas.Collab.Sharing
