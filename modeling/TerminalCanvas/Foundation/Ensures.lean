import TerminalCanvas.Foundation.Transaction

/-! # What a transaction body ensures

A body is judged by the tables it leaves when it succeeds and by the error it
reports when it fails. The rules follow the statements of a `do` block. -/

namespace TerminalCanvas.Transaction

variable {Error Tables α β : Type}

/-- Run on some tables, a body succeeds with `success` or fails with `failure`. A
structure, so that looking at a statement does not run its body. -/
structure Ensures (body : EStateM Error Tables α) (tables : Tables)
    (success : α → Tables → Prop) (failure : Error → Prop) : Prop where
  outcome : match body tables with
    | .ok value next => success value next
    | .error error _ => failure error

namespace Ensures

variable {tables : Tables} {success : α → Tables → Prop} {failure : Error → Prop}

theorem mono {body : EStateM Error Tables α} {weaker : α → Tables → Prop}
    {laxer : Error → Prop} (ensures : Ensures body tables success failure)
    (succeeds : ∀ value next, success value next → weaker value next)
    (fails : ∀ error, failure error → laxer error) : Ensures body tables weaker laxer := by
  constructor
  have outcome := ensures.outcome
  split
  · next value next run =>
      rw [run] at outcome
      exact succeeds value next outcome
  · next error next run =>
      rw [run] at outcome
      exact fails error outcome

theorem bind {first : EStateM Error Tables β} {rest : β → EStateM Error Tables α}
    (ensures : Ensures first tables (fun value next => Ensures (rest value) next success failure)
      failure) : Ensures (first >>= rest) tables success failure := by
  have outcome := ensures.outcome
  change Ensures (EStateM.bind first rest) tables success failure
  constructor
  unfold EStateM.bind
  cases run : first tables with
  | ok value next =>
      rw [run] at outcome
      exact outcome.outcome
  | error error next =>
      rw [run] at outcome
      exact outcome

theorem whatever {body : EStateM Error Tables α} :
    Ensures body tables (fun _ _ => True) fun _ => True := by
  constructor
  split
  · trivial
  · trivial

theorem seq {first : EStateM Error Tables β} {rest : β → EStateM Error Tables α}
    {outcome : β → Tables → Prop} (done : Ensures first tables outcome failure)
    (continues : ∀ value next, outcome value next → Ensures (rest value) next success failure) :
    Ensures (first >>= rest) tables success failure :=
  bind (done.mono continues fun _ fails => fails)

theorem pure {value : α} (holds : success value tables) :
    Ensures (Pure.pure value) tables success failure := ⟨holds⟩

theorem throw {error : Error} (holds : failure error) :
    Ensures (throw error : EStateM Error Tables α) tables success failure := ⟨holds⟩

theorem ensure_bind {condition : Prop} [Decidable condition] {error : Error}
    {rest : Unit → EStateM Error Tables α} (fails : ¬ condition → failure error)
    (continues : condition → Ensures (rest ()) tables success failure) :
    Ensures (ensure condition error >>= rest) tables success failure := by
  apply bind
  unfold Transaction.ensure
  split
  · next met => exact .pure (continues met)
  · next unmet => exact .throw (fails unmet)

theorem forM {Item : Type} {body : Item → EStateM Error Tables PUnit}
    {done : PUnit → Tables → Prop} (invariant : List Item → List Item → Tables → Prop)
    (items : List Item) (start : invariant [] items tables)
    (iterates : ∀ behind item ahead next, behind ++ item :: ahead = items →
      invariant behind (item :: ahead) next →
      Ensures (body item) next (fun _ => invariant (behind ++ [item]) ahead) failure)
    (ends : ∀ next, invariant items [] next → done ⟨⟩ next) :
    Ensures (items.forM body) tables done failure := by
  have loop : ∀ (ahead behind : List Item) (tables : Tables), behind ++ ahead = items →
      invariant behind ahead tables → Ensures (ahead.forM body) tables done failure := by
    intro ahead
    induction ahead with
    | nil =>
        intro behind tables whole holds
        rw [List.append_nil] at whole
        subst whole
        exact .pure (ends tables holds)
    | cons item ahead induction =>
        intro behind tables whole holds
        change Ensures (body item >>= fun _ => ahead.forM body) tables done failure
        refine seq (iterates behind item ahead tables whole holds) ?_
        intro _ next kept
        refine induction (behind ++ [item]) next ?_ kept
        rw [List.append_assoc]
        exact whole
  exact loop items [] tables rfl start

/-- A transaction behind its body: the tables of a success, or nothing at all. -/
theorem immediate {body : EStateM Error Tables α} {commit : Except Error Unit}
    (ensures : Ensures body tables success failure) :
    (∃ value, (immediate commit body tables).1 = .ok value ∧
      success value (immediate commit body tables).2) ∨
    ∃ error, (immediate commit body tables).1 = .error error ∧
      (immediate commit body tables).2 = tables ∧ (failure error ∨ commit = .error error) := by
  have outcome := ensures.outcome
  unfold Transaction.immediate
  cases run : body tables with
  | error error next =>
      rw [run] at outcome
      exact .inr ⟨error, rfl, rfl, .inl outcome⟩
  | ok value next =>
      rw [run] at outcome
      cases commit with
      | error error => exact .inr ⟨error, rfl, rfl, .inr rfl⟩
      | ok => exact .inl ⟨value, rfl, outcome⟩

end Ensures

end TerminalCanvas.Transaction
