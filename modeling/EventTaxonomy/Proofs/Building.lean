import EventTaxonomy.Proofs.NamePatterns
import EventTaxonomy.Proofs.Satisfaction

/-!
# Building is all or nothing

A document is built entry by entry, and an entry name by name. `RuleEntry.Sound` says when nothing
is wrong with an entry, and `RuleEntry.FailsWith` which error it has otherwise: that of its first
event type that is no name, else that of its context name, else that of its index. Both are about
the entry as it is written, and mention neither traversals nor rules.

* a traversal fails with the error of the first element that has one (`mapM_eq_error_iff`), which is
  used for the event types of an entry and for the entries of a document;
* an entry is built iff it is sound (`RuleEntry.exists_build_eq_ok_iff`), with its own settings
  (`RuleEntry.builtAs_of_build`), and otherwise has the error that it fails with
  (`RuleEntry.build_eq_error_iff`);
* `RuleDocument.build_all_or_nothing` says the same of documents: all of its entries are built, in
  order, or there is the error of the first one that is not sound.
-/

namespace EventTaxonomy

/-! ### Traversals that may fail -/

section Traversal

variable {ε α β : Type} {f : α → Except ε β} {as : List α}

theorem exists_eq_ok_iff {x : Except ε α} : (∃ a, x = .ok a) ↔ ∀ e, x ≠ .error e := by
  cases x <;> simp

theorem mapM_eq_error_iff {e : ε} :
    as.mapM f = .error e ↔ ∃ before a after, as = before ++ a :: after ∧
      (∀ b ∈ before, ∃ c, f b = .ok c) ∧ f a = .error e := by
  constructor
  · intro h
    induction as with
    | nil => cases h
    | cons a as ih =>
      rw [List.mapM_cons] at h
      cases ha : f a with
      | error e' =>
        rw [ha] at h
        cases h
        exact ⟨[], a, as, rfl, List.forall_mem_nil _, ha⟩
      | ok b =>
        cases has : as.mapM f with
        | ok bs => rw [ha, has] at h; cases h
        | error e' =>
          rw [ha, has] at h
          cases h
          obtain ⟨before, a', after, rfl, hbefore, ha'⟩ := ih has
          exact ⟨a :: before, a', after, rfl, List.forall_mem_cons.2 ⟨⟨b, ha⟩, hbefore⟩, ha'⟩
  · rintro ⟨before, a, after, rfl, hbefore, ha⟩
    induction before with
    | nil => rw [List.nil_append, List.mapM_cons, ha]; rfl
    | cons b before ih =>
      obtain ⟨⟨c, hc⟩, hbefore⟩ := List.forall_mem_cons.1 hbefore
      rw [List.cons_append, List.mapM_cons, hc]
      show ((before ++ a :: after).mapM f >>= fun bs => pure (c :: bs)) = _
      rw [ih hbefore]
      rfl

theorem exists_mapM_eq_ok_iff : (∃ bs, as.mapM f = .ok bs) ↔ ∀ a ∈ as, ∃ b, f a = .ok b := by
  constructor
  · rintro ⟨bs, h⟩ a ha
    obtain ⟨i, hi, rfl⟩ := List.getElem_of_mem ha
    have hall := forall₂_of_mapM_eq_ok h
    exact ⟨_, hall.get hi (hall.length_eq ▸ hi)⟩
  · intro h
    refine exists_eq_ok_iff.2 fun e he => ?_
    obtain ⟨before, a, after, rfl, -, ha⟩ := mapM_eq_error_iff.1 he
    obtain ⟨b, hb⟩ := h a (by simp)
    rw [ha] at hb
    cases hb

end Traversal

/-! ### What is wrong with an entry -/

namespace EntryCheck

/-- The context name that the entry gives. -/
def contextName : EntryCheck → Option String
  | missing contextName => some contextName
  | unique => none
  | location contextName _ _ => some contextName

/-- The settings of a location entry: only one occurrence, and its index. -/
def flags : EntryCheck → Option (Bool × Option Nat)
  | location _ once position => some (once, position)
  | _ => none

end EntryCheck

namespace RuleEntry

/-- All event types of the entry are names. -/
def TypesMatch (entry : RuleEntry) : Prop :=
  ∀ types, entry.eventTypes = some types → ∀ text ∈ types, NameFamily.event.Matches text

/-- Nothing is wrong with the entry: its event types and its context name are names, and it asks for
an index only together with a single occurrence. -/
structure Sound (entry : RuleEntry) : Prop where
  eventTypes : entry.TypesMatch
  contextName : ∀ text, entry.check.contextName = some text → NameFamily.context.Matches text
  position : ∀ n, entry.check.flags ≠ some (false, some n)

/-- The error of an entry with which something is wrong. -/
inductive FailsWith (entry : RuleEntry) : BuildError → Prop
  /-- The first event type that is no name. -/
  | eventType {before after : List String} {text : String} :
      entry.eventTypes = some (before ++ text :: after) →
      (∀ earlier ∈ before, NameFamily.event.Matches earlier) → ¬ NameFamily.event.Matches text →
      FailsWith entry (.invalidName ⟨.event, text⟩)
  /-- The event types are names, but the context name is none. -/
  | contextName {text : String} :
      entry.TypesMatch → entry.check.contextName = some text →
      ¬ NameFamily.context.Matches text → FailsWith entry (.invalidName ⟨.context, text⟩)
  /-- All names are good, but an index is asked for without a single occurrence. -/
  | position {text : String} {n : Nat} :
      entry.TypesMatch → entry.check = .location text false (some n) →
      NameFamily.context.Matches text → FailsWith entry (.positionWithoutOnce ⟨text⟩)

/-- The rule is that of the entry: its kind, its context name, its list of event types, if it has
one, and its settings for locations. -/
structure BuiltAs (entry : RuleEntry) (r : Rule) : Prop where
  kind : r.kind = entry.check.kind
  contextName : r.contextName.map ContextName.text = entry.check.contextName
  allowList : r.events.allowList.map (List.map EventTypeName.text) = entry.eventTypes
  appliesTo : ∀ e, r.appliesTo e = true ↔ entry.Concerns e
  flags : r.check.occurrence.map (fun o => (o.isOnce, o.position)) = entry.check.flags

/-! ### Building an entry -/

theorem buildEvents_eq_error_iff {eventTypes : Option (List String)} {e : BuildError} :
    buildEvents eventTypes = .error e ↔
      ∃ before text after, eventTypes = some (before ++ text :: after) ∧
        (∀ earlier ∈ before, NameFamily.event.Matches earlier) ∧
        ¬ NameFamily.event.Matches text ∧ e = .invalidName ⟨.event, text⟩ := by
  cases eventTypes with
  | none => simp [buildEvents]
  | some types =>
    have htraverse : buildEvents (some types) = .error e ↔
        ∃ e', types.mapM EventTypeName.parse = .error e' ∧ e = .invalidName e' := by
      cases htypes : types.mapM EventTypeName.parse <;> simp [buildEvents, htypes, eq_comm]
    rw [htraverse]
    constructor
    · rintro ⟨e', htypes, rfl⟩
      obtain ⟨before, text, after, rfl, hbefore, htext⟩ := mapM_eq_error_iff.1 htypes
      obtain ⟨hmatch, rfl⟩ := EventTypeName.parse_eq_error_iff.1 htext
      exact ⟨before, text, after, rfl,
        fun earlier h => EventTypeName.exists_parse_eq_ok_iff.1 (hbefore earlier h), hmatch, rfl⟩
    · rintro ⟨before, text, after, ⟨⟩, hbefore, hmatch, rfl⟩
      refine ⟨_, mapM_eq_error_iff.2 ⟨before, text, after, rfl, fun earlier h => ?_, ?_⟩, rfl⟩
      · exact EventTypeName.exists_parse_eq_ok_iff.2 (hbefore earlier h)
      · exact EventTypeName.parse_eq_error_iff.2 ⟨hmatch, rfl⟩

theorem exists_buildEvents_eq_ok_iff {entry : RuleEntry} :
    (∃ events, buildEvents entry.eventTypes = .ok events) ↔ entry.TypesMatch := by
  unfold TypesMatch
  cases entry.eventTypes with
  | none => simp [buildEvents]
  | some types =>
    have htraverse : (∃ events, buildEvents (some types) = .ok events) ↔
        ∃ names, types.mapM EventTypeName.parse = .ok names := by
      cases htypes : types.mapM EventTypeName.parse <;> simp [buildEvents, htypes]
    rw [htraverse, exists_mapM_eq_ok_iff]
    simp only [EventTypeName.exists_parse_eq_ok_iff, Option.some.injEq, forall_eq']

theorem buildCheck_eq_error_iff {platform : Platform} {check : EntryCheck} {e : BuildError} :
    buildCheck platform check = .error e ↔
      (∃ text, check.contextName = some text ∧ ¬ NameFamily.context.Matches text ∧
        e = .invalidName ⟨.context, text⟩) ∨
      ∃ text n, check = .location text false (some n) ∧ NameFamily.context.Matches text ∧
        e = .positionWithoutOnce ⟨text⟩ := by
  cases check with
  | missing text =>
    by_cases hmatch : NameFamily.context.Matches text <;>
      simp [buildCheck, ContextName.parse_eq, EntryCheck.contextName, hmatch, eq_comm]
  | unique => simp [buildCheck, EntryCheck.contextName]
  | location text once position =>
    by_cases hmatch : NameFamily.context.Matches text
    · cases once <;> cases position <;>
        simp [buildCheck, ContextName.parse_eq, EntryCheck.contextName, hmatch, Rule.withFlags,
          Rule.location, Rule.new, eq_comm]
    · simp [buildCheck, ContextName.parse_eq, EntryCheck.contextName, hmatch, eq_comm]

/-- **The error of an entry** is the first thing that is wrong with it. -/
theorem build_eq_error_iff {entry : RuleEntry} {platform : Platform} {logPrefix : Option String}
    {e : BuildError} : entry.build platform logPrefix = .error e ↔ entry.FailsWith e := by
  have hstages : entry.build platform logPrefix = .error e ↔
      buildEvents entry.eventTypes = .error e ∨
        (∃ events, buildEvents entry.eventTypes = .ok events) ∧
          buildCheck (entry.platform.getD platform) entry.check = .error e := by
    unfold build
    cases buildEvents entry.eventTypes with
    | error e' => simp
    | ok events => cases buildCheck (entry.platform.getD platform) entry.check <;> simp
  rw [hstages, buildEvents_eq_error_iff, exists_buildEvents_eq_ok_iff, buildCheck_eq_error_iff]
  constructor
  · rintro (⟨before, text, after, htypes, hbefore, hmatch, rfl⟩ |
      ⟨htypes, ⟨text, hname, hmatch, rfl⟩ | ⟨text, n, hcheck, hmatch, rfl⟩⟩)
    · exact .eventType htypes hbefore hmatch
    · exact .contextName htypes hname hmatch
    · exact .position htypes hcheck hmatch
  · intro h
    cases h with
    | eventType htypes hbefore hmatch => exact .inl ⟨_, _, _, htypes, hbefore, hmatch, rfl⟩
    | contextName htypes hname hmatch => exact .inr ⟨htypes, .inl ⟨_, hname, hmatch, rfl⟩⟩
    | position htypes hcheck hmatch => exact .inr ⟨htypes, .inr ⟨_, _, hcheck, hmatch, rfl⟩⟩

/-- Something is wrong with an entry iff it has an error. -/
theorem sound_iff {entry : RuleEntry} : entry.Sound ↔ ∀ e, ¬ entry.FailsWith e := by
  constructor
  · rintro hsound e hfails
    cases hfails with
    | eventType htypes _ hmatch => exact hmatch (hsound.eventTypes _ htypes _ (by simp))
    | contextName _ hname hmatch => exact hmatch (hsound.contextName _ hname)
    | position _ hcheck _ => exact hsound.position _ (by rw [hcheck]; rfl)
  · intro hnone
    have htypes : entry.TypesMatch := by
      refine exists_buildEvents_eq_ok_iff.1 (exists_eq_ok_iff.2 fun e he => ?_)
      obtain ⟨before, text, after, htypes, hbefore, hmatch, -⟩ := buildEvents_eq_error_iff.1 he
      exact hnone _ (.eventType htypes hbefore hmatch)
    have hname : ∀ text, entry.check.contextName = some text →
        NameFamily.context.Matches text := by
      intro text hname
      by_contra hmatch
      exact hnone _ (.contextName htypes hname hmatch)
    refine ⟨htypes, hname, fun n hflags => ?_⟩
    cases hcheck : entry.check with
    | missing text => rw [hcheck] at hflags; cases hflags
    | unique => rw [hcheck] at hflags; cases hflags
    | location text once position =>
      rw [hcheck] at hflags hname
      cases hflags
      exact hnone _ (.position htypes hcheck (hname text rfl))

theorem exists_build_eq_ok_iff {entry : RuleEntry} {platform : Platform}
    {logPrefix : Option String} :
    (∃ r, entry.build platform logPrefix = .ok r) ↔ entry.Sound := by
  simp only [exists_eq_ok_iff, sound_iff, ne_eq, build_eq_error_iff]

theorem allowList_matcher (entry : RuleEntry) :
    entry.matcher.allowList.map (List.map EventTypeName.text) = entry.eventTypes := by
  unfold matcher
  cases entry.eventTypes with
  | none => rfl
  | some types => simp [Function.comp_def]

theorem builtAs_of_build {entry : RuleEntry} {platform : Platform} {logPrefix : Option String}
    {r : Rule} (h : entry.build platform logPrefix = .ok r) : entry.BuiltAs r := by
  obtain ⟨rfl, hconsistent⟩ := build_eq_ok h
  refine ⟨?_, ?_, entry.allowList_matcher, fun e => accepts_matcher_iff, ?_⟩
  · show entry.check.toCheck.kind = _
    cases entry.check <;> rfl
  · show entry.check.toCheck.contextName.map _ = _
    cases entry.check <;> rfl
  · show entry.check.toCheck.occurrence.map _ = _
    cases hcheck : entry.check with
    | missing text => rfl
    | unique => rfl
    | location text once position =>
      rw [hcheck] at hconsistent
      cases once with
      | true => cases position <;> rfl
      | false =>
        cases position with
        | none => rfl
        | some n => exact absurd (hconsistent rfl) Bool.false_ne_true

end RuleEntry

/-! ### Building a document -/

namespace RuleDocument

theorem build_eq_error_iff {doc : RuleDocument} {e : BuildError} :
    doc.build = .error e ↔ ∃ before entry after, doc.rules = before ++ entry :: after ∧
      (∀ earlier ∈ before, RuleEntry.Sound earlier) ∧ RuleEntry.FailsWith entry e := by
  have hmap : doc.build = .error e ↔ (doc.rules.mapM fun (entry : RuleEntry) =>
      entry.build doc.platform doc.logPrefix) = .error e := by
    unfold build
    cases (doc.rules.mapM fun (entry : RuleEntry) => entry.build doc.platform doc.logPrefix) <;>
      simp [Except.map]
  rw [hmap, mapM_eq_error_iff]
  simp only [RuleEntry.exists_build_eq_ok_iff, RuleEntry.build_eq_error_iff]

theorem exists_build_eq_ok_iff {doc : RuleDocument} :
    (∃ set, doc.build = .ok set) ↔ ∀ entry ∈ doc.rules, entry.Sound := by
  have hmap : (∃ set, doc.build = .ok set) ↔ ∃ rules, (doc.rules.mapM fun (entry : RuleEntry) =>
      entry.build doc.platform doc.logPrefix) = .ok rules := by
    constructor
    · rintro ⟨set, hset⟩
      obtain ⟨rules, hrules, -⟩ := Json.map_eq_ok.1 hset
      exact ⟨rules, hrules⟩
    · rintro ⟨rules, hrules⟩
      exact ⟨_, Json.map_eq_ok.2 ⟨rules, hrules, rfl⟩⟩
  rw [hmap, exists_mapM_eq_ok_iff]
  simp only [RuleEntry.exists_build_eq_ok_iff]

/-- **Building is all or nothing, with a determined error.** A document is built iff nothing is
wrong with any of its entries. It then has one rule for each entry, in order, with the settings of
the entry. Otherwise the error is that of the first entry with which something is wrong, and of that
entry the first event type that is no name comes before the context name, and this before an index
without a single occurrence. -/
theorem build_all_or_nothing (doc : RuleDocument) :
    ((∃ set, doc.build = .ok set) ↔ ∀ entry ∈ doc.rules, entry.Sound) ∧
      (∀ set, doc.build = .ok set → List.Forall₂ RuleEntry.BuiltAs doc.rules set.rules) ∧
      ∀ e, doc.build = .error e ↔ ∃ before entry after, doc.rules = before ++ entry :: after ∧
        (∀ earlier ∈ before, RuleEntry.Sound earlier) ∧ RuleEntry.FailsWith entry e := by
  refine ⟨exists_build_eq_ok_iff, fun set hset => ?_, fun e => build_eq_error_iff⟩
  exact (forall₂_of_build_eq_ok hset).imp fun _ _ => RuleEntry.builtAs_of_build

/-- A document in which everything is wrong with the second entry, and something with the third. -/
def faulty : RuleDocument where
  platform := .core
  logPrefix := none
  rules :=
    [⟨.unique, some [], none, none⟩,
      ⟨.location "rootContext" false (some 1), some ["PressEvent", "pressEvent", "Event"], none,
        none⟩,
      ⟨.missing "Context", none, none, none⟩]

/-- The sample document is built; of the faulty one, the first thing that is wrong is reported. -/
theorem build_all_or_nothing_faulty :
    (∃ set, sample.build = .ok set ∧ List.Forall₂ RuleEntry.BuiltAs sample.rules set.rules) ∧
      faulty.build = .error (.invalidName ⟨.event, "pressEvent"⟩) := by
  have hsound : RuleEntry.Sound ⟨.unique, some [], none, none⟩ := by
    refine ⟨?_, ?_, ?_⟩
    · rintro types ⟨⟩ text htext
      cases htext
    · rintro text ⟨⟩
    · rintro n ⟨⟩
  have hfails : RuleEntry.FailsWith ⟨.location "rootContext" false (some 1),
      some ["PressEvent", "pressEvent", "Event"], none, none⟩
      (.invalidName ⟨.event, "pressEvent"⟩) := by
    have htypes : some ["PressEvent", "pressEvent", "Event"] =
        some (["PressEvent"] ++ "pressEvent" :: ["Event"]) := rfl
    exact .eventType htypes (by decide) (by decide)
  refine ⟨⟨_, rfl, (build_all_or_nothing sample).2.1 _ rfl⟩, ?_⟩
  refine ((build_all_or_nothing faulty).2.2 _).2 ⟨[_], _, [_], rfl, ?_, hfails⟩
  exact List.forall_mem_singleton.2 hsound

end RuleDocument

end EventTaxonomy
