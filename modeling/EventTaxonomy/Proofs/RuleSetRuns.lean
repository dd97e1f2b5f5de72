import EventTaxonomy.RuleSet
import Mathlib.Data.List.Basic

/-!
# Rule sets that grow and shrink

A rule set is put together by steps: a rule is pushed, or the set is filtered for a platform. The
steps may come in any order, so what becomes of a rule depends on the filters that come after it,
and on no others. `RuleSet.rules_step` says what one step does to the rules of a set, and
`RuleSet.rules_run` what any number of them do.

`RuleSet.run_steps` puts this together for sets that start out empty. The rules in the end are those
that were pushed, in order and as often as they were, less those that a later filter has dropped
(`RuleSet.survivors`); an event is checked against them in that order. Filters for two platforms
leave only what is for all platforms, and of filters that stand side by side neither the order nor
the number matters.
-/

namespace EventTaxonomy

/-- The rule is for all platforms, or for each of these. -/
def Rule.Survives (r : Rule) (platforms : List Platform) : Prop :=
  r.platform = .core ∨ ∀ p ∈ platforms, r.platform = p

instance (r : Rule) (platforms : List Platform) : Decidable (r.Survives platforms) :=
  inferInstanceAs (Decidable (r.platform = .core ∨ ∀ p ∈ platforms, r.platform = p))

theorem Rule.survives_nil (r : Rule) : r.Survives [] := .inr nofun

theorem Rule.survives_append_iff {r : Rule} {ps qs : List Platform} :
    r.Survives (ps ++ qs) ↔ r.Survives ps ∧ r.Survives qs := by
  simp only [Survives, List.forall_mem_append]
  by_cases hcore : r.platform = .core
  · simp [hcore]
  · simp [hcore]

/-- A rule that is for two platforms is for all of them. -/
theorem Rule.survives_iff_of_ne {r : Rule} {ps : List Platform} {p q : Platform} (hp : p ∈ ps)
    (hq : q ∈ ps) (hne : p ≠ q) : r.Survives ps ↔ r.platform = .core := by
  constructor
  · rintro (hcore | hall)
    · exact hcore
    · exact absurd ((hall p hp).symm.trans (hall q hq)) hne
  · exact .inl

namespace RuleSet

/-! ### Steps -/

/-- What is done to a rule set. -/
inductive Step where
  /-- A rule is appended. -/
  | push (r : Rule)
  /-- The rules of other platforms are dropped. -/
  | forPlatform (p : Platform)

/-- Carries out a step. -/
def step (set : RuleSet) : Step → RuleSet
  | .push r => set.push r
  | .forPlatform p => set.forPlatform p

/-- Carries out steps one after the other. -/
def run (set : RuleSet) (steps : List Step) : RuleSet := steps.foldl step set

/-- The platforms that steps filter for. -/
def filters : List Step → List Platform
  | [] => []
  | .push _ :: steps => filters steps
  | .forPlatform p :: steps => p :: filters steps

/-- The rules that steps push, each with the platforms that are filtered for after it. -/
def pushes : List Step → List (Rule × List Platform)
  | [] => []
  | .push r :: steps => (r, filters steps) :: pushes steps
  | .forPlatform _ :: steps => pushes steps

/-- The rules that steps push and that survive the filters after them. -/
def survivors (steps : List Step) : List Rule :=
  ((pushes steps).filter fun pushed => pushed.1.Survives pushed.2).map Prod.fst

theorem filters_append (xs ys : List Step) : filters (xs ++ ys) = filters xs ++ filters ys := by
  induction xs with
  | nil => rfl
  | cons s xs ih =>
    cases s with
    | push r => exact ih
    | forPlatform p => exact congrArg (p :: ·) ih

theorem pushes_append (xs ys : List Step) :
    pushes (xs ++ ys) =
      (pushes xs).map (fun pushed => (pushed.1, pushed.2 ++ filters ys)) ++ pushes ys := by
  induction xs with
  | nil => rfl
  | cons s xs ih =>
    cases s with
    | push r =>
      show (r, filters (xs ++ ys)) :: pushes (xs ++ ys) = _
      rw [filters_append, ih]
      rfl
    | forPlatform p => exact ih

/-- The filters of later steps drop some of the survivors of earlier ones, and no others. -/
theorem survivors_append (xs ys : List Step) :
    survivors (xs ++ ys) =
      (survivors xs).filter (fun r => r.Survives (filters ys)) ++ survivors ys := by
  rw [survivors, pushes_append, List.filter_append, List.map_append, List.filter_map, List.map_map,
    survivors, List.filter_map, List.filter_filter]
  congr 2
  refine List.filter_congr fun pushed _ => ?_
  simp [Rule.survives_append_iff, Bool.and_comm]

/-! ### What steps do to the rules of a set -/

theorem rules_step (set : RuleSet) (s : Step) :
    (set.step s).rules =
      set.rules.filter (fun r => r.Survives (filters [s])) ++ survivors [s] := by
  cases s with
  | push r =>
    show set.rules ++ [r] = _
    simp [filters, survivors, pushes, Rule.survives_nil]
  | forPlatform p =>
    show set.rules.filter (fun r => r.platform = p || r.platform = .core) = _
    simp [filters, survivors, pushes, Rule.Survives, Bool.or_comm]

theorem rules_run (set : RuleSet) (steps : List Step) :
    (set.run steps).rules =
      set.rules.filter (fun r => r.Survives (filters steps)) ++ survivors steps := by
  induction steps generalizing set with
  | nil => simp [run, filters, survivors, pushes, Rule.survives_nil]
  | cons s steps ih =>
    have hfilters : filters (s :: steps) = filters [s] ++ filters steps := filters_append [s] steps
    have hsurvivors := survivors_append [s] steps
    show ((set.step s).run steps).rules = _
    rw [ih, rules_step, List.filter_append, List.filter_filter, List.append_assoc, ← hsurvivors,
      hfilters]
    simp [Rule.survives_append_iff, Bool.and_comm]

theorem run_append (set : RuleSet) (xs ys : List Step) :
    set.run (xs ++ ys) = (set.run xs).run ys :=
  List.foldl_append

theorem rules_run_empty (steps : List Step) : (empty.run steps).rules = survivors steps :=
  rules_run empty steps

/-! ### Several filters -/

theorem forPlatform_forPlatform_self (set : RuleSet) (p : Platform) :
    (set.forPlatform p).forPlatform p = set.forPlatform p := by
  simp [forPlatform, List.filter_filter]

theorem forPlatform_comm (set : RuleSet) (p q : Platform) :
    (set.forPlatform p).forPlatform q = (set.forPlatform q).forPlatform p := by
  simp [forPlatform, List.filter_filter, Bool.and_comm]

/-- No filter drops a rule that is for all platforms. -/
theorem filter_core_survivors (steps : List Step) :
    (survivors steps).filter (fun r => r.platform = .core) =
      ((pushes steps).map Prod.fst).filter fun r => r.platform = .core := by
  rw [survivors, List.filter_map, List.filter_map, List.filter_filter]
  congr 1
  refine List.filter_congr fun pushed _ => ?_
  by_cases hcore : pushed.1.platform = .core
  · simp [Rule.Survives, hcore]
  · simp [hcore]

/-- **The rules of a set are the pushed ones that survive the filters after them**, in the order in
which they were pushed, and an event is checked against them in that order. Of the rules pushed
before filters for two platforms, those for all platforms remain. To filter for a platform twice in
a row is to do so once, and two filters in a row may change places. -/
theorem run_steps (steps : List Step) :
    (empty.run steps).rules = survivors steps ∧
      (∀ e, (empty.run steps).validate e = (survivors steps).flatMap fun r => r.validate e) ∧
      (∀ before after p q, steps = before ++ after → p ∈ filters after → q ∈ filters after →
        p ≠ q → (empty.run steps).rules =
          ((pushes before).map Prod.fst).filter (fun r => r.platform = .core) ++
            (empty.run after).rules) ∧
      (∀ before after p, steps = before ++ .forPlatform p :: .forPlatform p :: after →
        empty.run steps = empty.run (before ++ .forPlatform p :: after)) ∧
      ∀ before after p q, steps = before ++ .forPlatform p :: .forPlatform q :: after →
        empty.run steps = empty.run (before ++ .forPlatform q :: .forPlatform p :: after) := by
  refine ⟨rules_run_empty steps, fun e => ?_, ?_, ?_, ?_⟩
  · rw [validate, rules_run_empty]
  · rintro before after p q rfl hp hq hne
    have hcore : ∀ r : Rule, r.Survives (filters after) ↔ r.platform = .core := fun r =>
      r.survives_iff_of_ne hp hq hne
    rw [rules_run_empty, survivors_append, rules_run_empty, ← filter_core_survivors]
    simp only [hcore]
  · rintro before after p rfl
    rw [run_append, run_append]
    show (((empty.run before).forPlatform p).forPlatform p).run after = _
    rw [forPlatform_forPlatform_self]
    rfl
  · rintro before after p q rfl
    rw [run_append, run_append]
    show (((empty.run before).forPlatform p).forPlatform q).run after = _
    rw [forPlatform_comm]
    rfl

/-- A rule for browsers is pushed at every point around two filters, and a rule for all platforms
once. -/
theorem run_steps_two_platforms :
    let web := Rule.missing .browser ⟨"PathContext"⟩
    let shared := Rule.unique .core
    let before := [.push web, .push shared, .push web]
    let after := [.forPlatform .browser, .push web, .forPlatform .react, .push web, .push web]
    (empty.run (before ++ after)).rules = [shared, web, web] := by
  intro web shared before after
  exact (run_steps (before ++ after)).2.2.1 before after .browser .react rfl (by decide) (by decide)
    (by decide)

end RuleSet

end EventTaxonomy
