import TerminalCanvas.Foundation.Json
import TerminalCanvas.Foundation.Subsequences

/-! # Fuzzy matching

The lower-cased candidate is read from the left for the characters of the lower-cased query.
What it reads earns points by the characters of the candidate as it was typed. -/

namespace TerminalCanvas.Palette

abbrev Text := List Char

/-- `str::to_lowercase`: what each character becomes in a text. Some become several. -/
structure Lowering where
  each : Text → List Text
  one_each : ∀ text, (each text).length = text.length
  nonempty : ∀ text, ∀ group ∈ each text, group ≠ []

def Lowering.lower (lowering : Lowering) (text : Text) : Text := (lowering.each text).flatten

def wordSeparators : List Char := [' ', '/', '-', '_', ':', Json.backslash]

/-- The points for where a match stands: `none` is an access behind the candidate. -/
def wordBonus (candidate : Text) (ci : Nat) : Option Int :=
  if ci = 0 then some 15
  else candidate[ci - 1]?.map fun previous => if wordSeparators.contains previous then 10 else 0

structure Progress where
  score : Int
  qi : Nat
  prevMatched : Bool
  consecutive : Nat
deriving DecidableEq, Repr

/-- One round over the lower-cased candidate. -/
def round (query queryLower candidate : Text) (ci : Nat) (cc : Char) (state : Progress) :
    Option Progress :=
  if queryLower[state.qi]? = some cc then do
    let score := state.score + 1
    let (score, consecutive) :=
      if state.prevMatched then (score + 5, state.consecutive + 1)
      else (if 0 < state.qi then score - 1 else score, 0)
    let bonus ← wordBonus candidate ci
    let written ← candidate[ci]?
    let typed ← query[state.qi]?
    let score := if written = typed then score + bonus + 1 else score + bonus
    pure ⟨score, state.qi + 1, true, consecutive⟩
  else
    pure { state with prevMatched := false, consecutive := 0 }

def rounds (query queryLower candidate : Text) : Nat → Text → Progress → Option Progress
  | _, [], state => some state
  | ci, cc :: rest, state =>
      (round query queryLower candidate ci cc state).bind
        (rounds query queryLower candidate (ci + 1) rest)

/-- The score of a candidate, unless it does not match. An access out of bounds has no
result at all. -/
def fuzzyScore (lowering : Lowering) (query candidate : Text) : Option (Option Int) :=
  if query = [] then
    some (some 0)
  else do
    let queryLower := lowering.lower query
    let state ← rounds query queryLower candidate 0 (lowering.lower candidate) ⟨0, 0, false, 0⟩
    pure (if state.qi = queryLower.length then some state.score else none)

/-! ## Where a lower-cased character comes from -/

/-- The group of a position in the groups put together. -/
def origin : List Text → Nat → Nat
  | [], _ => 0
  | group :: groups, position =>
      if position < group.length then 0 else origin groups (position - group.length) + 1

/-- The character that became the one at this position stands behind a separator. -/
def FollowsSeparator (lowering : Lowering) (candidate : Text) (ci : Nat) : Prop :=
  ∃ before separator, origin (lowering.each candidate) ci = before + 1 ∧
    candidate[before]? = some separator ∧ wordSeparators.contains separator = true

open Subsequences

variable (lowering : Lowering) (query candidate : Text)

/-- The position at which the candidate first has so much of the query. -/
def Matches (ci qi : Nat) : Prop :=
  Takes (lowering.lower query) (lowering.lower candidate) ci qi

/-- The positions of the matches are positions of the query and of the candidate as they
were typed, and the character in front of one is a separator if the one in front of its
origin is. -/
def Aligned : Prop :=
  query ≠ [] → ∀ ci qi, Matches lowering query candidate ci qi →
    ci < candidate.length ∧ qi < query.length ∧
      ((∃ previous, ci ≠ 0 ∧ candidate[ci - 1]? = some previous ∧
        wordSeparators.contains previous = true) ↔ FollowsSeparator lowering candidate ci)

/-- A match is found if there is one, and its words' starts are told from the rest. -/
structure MatchesExactly : Prop where
  returns : ∃ result, fuzzyScore lowering query candidate = some result ∧
    (result.isSome = true ↔ (lowering.lower query).Sublist (lowering.lower candidate))
  bonus : query ≠ [] → ∀ ci qi, Matches lowering query candidate ci qi →
    (wordBonus candidate ci = some 10 ↔ FollowsSeparator lowering candidate ci)

/-! ## The rounds -/

variable {lowering query candidate}

theorem wordBonus_isSome {ci : Nat} (inside : ci < candidate.length) :
    (wordBonus candidate ci).isSome = true := by
  rw [wordBonus]
  split
  · rfl
  · rw [Option.isSome_map, List.getElem?_eq_getElem (by omega)]
    rfl

theorem wordBonus_eq_ten {ci : Nat} : wordBonus candidate ci = some 10 ↔
    ∃ previous, ci ≠ 0 ∧ candidate[ci - 1]? = some previous ∧
      wordSeparators.contains previous = true := by
  rw [wordBonus]
  split
  · next first => simp [first]
  · next later =>
      rw [Option.map_eq_some_iff]
      constructor
      · rintro ⟨previous, at_eq, bonus⟩
        refine ⟨previous, later, at_eq, ?_⟩
        by_contra other
        rw [if_neg other] at bonus
        cases bonus
      · rintro ⟨previous, -, at_eq, separates⟩
        exact ⟨previous, at_eq, if_pos separates⟩

theorem round_match {queryLower : Text} {ci : Nat} {cc : Char} {state : Progress}
    (asked : queryLower[state.qi]? = some cc) :
    ((round query queryLower candidate ci cc state).isSome = true ↔
      ci < candidate.length ∧ state.qi < query.length) ∧
    ∀ next, round query queryLower candidate ci cc state = some next →
      next.qi = state.qi + 1 := by
  rw [round, if_pos asked]
  by_cases inside : ci < candidate.length
  · obtain ⟨bonus, bonus_eq⟩ := Option.isSome_iff_exists.mp (wordBonus_isSome inside)
    by_cases typed : state.qi < query.length
    · simp [bonus_eq, inside, typed]
    · simp [bonus_eq, List.getElem?_eq_getElem inside, typed]
  · cases wordBonus candidate ci with
    | none => simp [inside]
    | some bonus => simp [inside]

theorem round_other {queryLower : Text} {ci : Nat} {cc : Char} {state : Progress}
    (other : ¬ queryLower[state.qi]? = some cc) :
    round query queryLower candidate ci cc state =
      some { state with prevMatched := false, consecutive := 0 } := by
  rw [round, if_neg other]
  rfl

/-- The rounds that are left need the positions of the matches that are left, and take what
a greedy reader takes. -/
theorem rounds_matches {queryLower : Text} (seen rest : Text) {state : Progress}
    (read : state.qi = taken queryLower seen) :
    ((rounds query queryLower candidate seen.length rest state).isSome = true ↔
      ∀ ci qi, seen.length ≤ ci → Takes queryLower (seen ++ rest) ci qi →
        ci < candidate.length ∧ qi < query.length) ∧
    ∀ final, rounds query queryLower candidate seen.length rest state = some final →
      final.qi = taken queryLower (seen ++ rest) := by
  induction rest generalizing seen state with
  | nil =>
      rw [rounds, List.append_nil]
      refine ⟨⟨?_, fun _ => rfl⟩, ?_⟩
      · intro _ ci qi behind takes
        exact absurd takes.inside (Nat.not_lt_of_le behind)
      · rintro final ⟨⟩
        exact read
  | cons cc rest induction =>
      have whole : seen ++ cc :: rest = (seen ++ [cc]) ++ rest := by simp
      have length : (seen ++ [cc]).length = seen.length + 1 := by simp
      have here : ∀ qi, Takes queryLower (seen ++ cc :: rest) seen.length qi ↔
          qi = state.qi ∧ queryLower[state.qi]? = some cc := by
        intro qi
        rw [takes_iff, List.take_left, ← read, List.getElem?_append_right (Nat.le_refl _),
          Nat.sub_self, List.getElem?_cons_zero]
        constructor
        · rintro ⟨rfl, -, -, asked⟩
          exact ⟨rfl, asked⟩
        · rintro ⟨rfl, asked⟩
          exact ⟨rfl, (List.getElem?_eq_some_iff.mp asked).1, by simp, asked⟩
      rw [rounds]
      by_cases asked : queryLower[state.qi]? = some cc
      · obtain ⟨succeeds, advances⟩ := @round_match query candidate queryLower
          seen.length cc state asked
        cases stepped : round query queryLower candidate seen.length cc state with
        | none =>
            rw [stepped] at succeeds
            refine ⟨⟨nofun, ?_⟩, nofun⟩
            intro all
            exact absurd (all _ _ (Nat.le_refl _) ((here _).mpr ⟨rfl, asked⟩))
              (mt succeeds.mpr nofun)
        | some next =>
            rw [stepped] at succeeds
            have inRange := succeeds.mp rfl
            have read' : next.qi = taken queryLower (seen ++ [cc]) := by
              rw [advances next stepped, taken_append, advance, ← read, if_pos asked]
            obtain ⟨succeedsLater, final⟩ := induction (seen ++ [cc]) read'
            rw [length, ← whole] at succeedsLater final
            rw [Option.bind_some]
            refine ⟨succeedsLater.trans ⟨?_, ?_⟩, final⟩
            · intro later ci qi behind takes
              rcases Nat.eq_or_lt_of_le behind with rfl | more
              · obtain ⟨rfl, -⟩ := (here qi).mp takes
                exact inRange
              · exact later ci qi more takes
            · intro all ci qi behind takes
              exact all ci qi (Nat.le_of_succ_le behind) takes
      · have read' : state.qi = taken queryLower (seen ++ [cc]) := by
          rw [taken_append, advance, ← read, if_neg asked]
        obtain ⟨succeedsLater, final⟩ := @induction (seen ++ [cc])
          { state with prevMatched := false, consecutive := 0 } read'
        rw [length, ← whole] at succeedsLater final
        rw [round_other asked, Option.bind_some]
        refine ⟨succeedsLater.trans ⟨?_, ?_⟩, final⟩
        · intro later ci qi behind takes
          rcases Nat.eq_or_lt_of_le behind with rfl | more
          · exact absurd ((here qi).mp takes).2 asked
          · exact later ci qi more takes
        · intro all ci qi behind takes
          exact all ci qi (Nat.le_of_succ_le behind) takes

/-! ## The score -/

theorem fuzzyScore_isSome : (fuzzyScore lowering query candidate).isSome = true ↔
    (query ≠ [] → ∀ ci qi, Matches lowering query candidate ci qi →
      ci < candidate.length ∧ qi < query.length) := by
  by_cases empty : query = []
  · simp [fuzzyScore, empty]
  have read := (@rounds_matches query candidate (lowering.lower query) []
    (lowering.lower candidate) ⟨0, 0, false, 0⟩ rfl).1
  rw [List.length_nil, List.nil_append] at read
  have ends : (fuzzyScore lowering query candidate).isSome = true ↔ (rounds query
      (lowering.lower query) candidate 0 (lowering.lower candidate) ⟨0, 0, false, 0⟩).isSome =
        true := by
    rw [fuzzyScore, if_neg empty]
    dsimp only
    generalize rounds query (lowering.lower query) candidate 0 (lowering.lower candidate)
      ⟨0, 0, false, 0⟩ = ended
    cases ended with
    | none => exact Iff.rfl
    | some state => exact Iff.rfl
  rw [ends, read]
  constructor
  · exact fun all _ ci qi => all ci qi (Nat.zero_le ci)
  · exact fun all ci qi _ => all empty ci qi

theorem fuzzyScore_subsequence {result : Option Int}
    (returned : fuzzyScore lowering query candidate = some result) :
    result.isSome = true ↔ (lowering.lower query).Sublist (lowering.lower candidate) := by
  by_cases empty : query = []
  · have nothing : lowering.lower query = [] := by
      have groups := lowering.one_each query
      rw [empty, List.length_nil] at groups
      rw [Lowering.lower, empty, List.eq_nil_of_length_eq_zero groups, List.flatten_nil]
    rw [fuzzyScore, if_pos empty] at returned
    cases returned
    simp [nothing]
  have read := (@rounds_matches query candidate (lowering.lower query) []
    (lowering.lower candidate) ⟨0, 0, false, 0⟩ rfl).2
  rw [List.length_nil, List.nil_append] at read
  rw [fuzzyScore, if_neg empty] at returned
  obtain ⟨state, ends, scored⟩ := Option.bind_eq_some_iff.mp returned
  cases scored
  rw [sublist_iff, ← read state ends]
  split
  · next whole => simp [whole]
  · next part => simp [part]

theorem matchesExactly_iff : MatchesExactly lowering query candidate ↔
    Aligned lowering query candidate := by
  constructor
  · rintro ⟨⟨result, returned, -⟩, bonus⟩ typed ci qi here
    have succeeds := fuzzyScore_isSome.mp (Option.isSome_of_eq_some returned)
    obtain ⟨inside, asked⟩ := succeeds typed ci qi here
    exact ⟨inside, asked, wordBonus_eq_ten.symm.trans (bonus typed ci qi here)⟩
  · intro aligned
    have succeeds := fuzzyScore_isSome.mpr fun typed ci qi here =>
      ⟨(aligned typed ci qi here).1, (aligned typed ci qi here).2.1⟩
    obtain ⟨result, returned⟩ := Option.isSome_iff_exists.mp succeeds
    refine ⟨⟨result, returned, fuzzyScore_subsequence returned⟩, ?_⟩
    intro typed ci qi here
    exact wordBonus_eq_ten.trans (aligned typed ci qi here).2.2

/-! ## One character for each -/

end TerminalCanvas.Palette
