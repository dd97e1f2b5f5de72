import EventTaxonomy.Proofs.Building
import EventTaxonomy.Proofs.RulePositions

/-!
# Platforms and prefixes fall back

The platform of a rule is that of its entry, else that which the document names, else `core`. The
prefix is that of the entry, else that of the document, else that of the command line. These are
settled in three places: when the document is read, when it is built, and when a command loads it.
An empty prefix is there, and so keeps those behind it from being used, but shows nothing.

* what a document names as its platform is read off the value of its text, whatever way it is
  written (`RuleDocument.platform_of_parse`);
* `Cli.rulesOfDocument_eq_ok` says which rules a command makes of a document;
* `Cli.loadRules_resolved` puts the two together, and says what the diagnostics of the rules show.
-/

namespace EventTaxonomy

open Json (Shape Layout)

/-! ### What is given first -/

/-- The first of several values that is there. -/
def firstPresent {α : Type} (values : List (Option α)) : Option α := values.findSome? id

/-- The platform of an entry: its own, else that which the document names, else that of all. -/
def RuleEntry.resolvedPlatform (entry : RuleEntry) (named : Option Platform) : Platform :=
  (firstPresent [entry.platform, named]).getD .core

/-- The prefix for an entry: its own, else that of the document, else that of the command line. -/
def RuleEntry.resolvedPrefix (entry : RuleEntry) (document commandLine : Option String) :
    Option String :=
  firstPresent [entry.logPrefix, document, commandLine]

/-- The platform is that of all, or the chosen one; without a choice, it is any. -/
def Platform.Selected (p : Platform) : Option Platform → Prop
  | none => True
  | some chosen => p = .core ∨ p = chosen

instance (p : Platform) : DecidablePred p.Selected
  | none => isTrue trivial
  | some chosen => inferInstanceAs (Decidable (p = .core ∨ p = chosen))

/-- The diagnostic has the prefix, and its tag is plain just if there is none or an empty one. -/
structure Diagnostic.Carries (d : Diagnostic) (given : Option String) : Prop where
  logPrefix : Shows d.logPrefix given
  tag : d.tag = "｢objectiv｣" ↔ given = none ∨ given = some ""

theorem RuleEntry.resolvedPlatform_eq (entry : RuleEntry) (named : Option Platform) :
    entry.resolvedPlatform named = entry.platform.getD (named.getD .core) := by
  unfold resolvedPlatform
  cases entry.platform <;> cases named <;> rfl

theorem RuleEntry.resolvedPrefix_eq (entry : RuleEntry) (document commandLine : Option String) :
    entry.resolvedPrefix document commandLine =
      entry.logPrefix.or (document.or commandLine) := by
  unfold resolvedPrefix
  cases entry.logPrefix <;> cases document <;> cases commandLine <;> rfl

/-! ### Prefixes of diagnostics -/

namespace Diagnostic

theorem tag_eq_plain_iff (d : Diagnostic) : d.tag = "｢objectiv｣" ↔ d.logPrefix = none := by
  unfold tag
  cases d.logPrefix with
  | none => simp
  | some text =>
    -- a tag with a prefix in it is longer
    have hlonger : "｢objectiv:" ++ text ++ "｣" ≠ "｢objectiv｣" := by
      intro h
      have hlength := congrArg String.length h
      have hparts : "｢objectiv:".length = 10 ∧ "｣".length = 1 ∧ "｢objectiv｣".length = 10 := by
        decide
      simp only [String.length_append] at hlength
      omega
    simp [hlonger]

theorem carries_of_shows {d : Diagnostic} {given : Option String} (h : Shows d.logPrefix given) :
    d.Carries given :=
  ⟨h, d.tag_eq_plain_iff.trans h.eq_none_iff⟩

end Diagnostic

namespace Rule

theorem logPrefix_of_mem_validate {r : Rule} {e : Event} {d : Diagnostic}
    (h : d ∈ r.validate e) : d.logPrefix = r.logPrefix := by
  obtain ⟨name, violation, -, rfl⟩ := exists_violation_of_mem_validate h
  rfl

theorem carries_of_mem_validate {r : Rule} {given : Option String} (hr : Shows r.logPrefix given)
    {e : Event} {d : Diagnostic} (h : d ∈ r.validate e) : d.Carries given :=
  Diagnostic.carries_of_shows ((logPrefix_of_mem_validate h).symm ▸ hr)

end Rule

/-! ### The platform that a document names -/

section Places

variable {β : Type} {name : String} {shape : Shape β} {fields : Fields} {new : Option β}

theorem eq_of_foldlM_fillAt_some {b : β}
    (h : fields.foldlM (fillAt name shape) (some b) = some new) : new = some b := by
  induction fields with
  | nil =>
    cases h
    rfl
  | cons field fields ih =>
    obtain ⟨key, v⟩ := field
    obtain ⟨old, hfill, hrest⟩ := Option.bind_eq_some_iff.1 h
    by_cases hkey : key = name
    · subst hkey
      cases (fillAt_self_eq_some_iff.1 hfill).1
    · rw [fillAt_of_ne hkey] at hfill
      cases hfill
      exact ih hrest

/-- A place that the fields fill holds the value under its key. It does not matter whether other
keys come twice. -/
theorem eq_lookup_of_foldlM_fillAt {look : Json → Option β}
    (hlook : ∀ v b, shape.ofJson v = .ok b → look v = some b)
    (h : fields.foldlM (fillAt name shape) none = some new) :
    new = (lookup name fields).bind look := by
  induction fields with
  | nil =>
    cases h
    rfl
  | cons field fields ih =>
    obtain ⟨key, v⟩ := field
    obtain ⟨old, hfill, hrest⟩ := Option.bind_eq_some_iff.1 h
    by_cases hkey : key = name
    · subst hkey
      obtain ⟨-, b, hb, rfl⟩ := fillAt_self_eq_some_iff.1 hfill
      rw [eq_of_foldlM_fillAt_some hrest, lookup, if_pos rfl]
      exact (hlook v b hb).symm
    · rw [fillAt_of_ne hkey] at hfill
      cases hfill
      rw [lookup, if_neg hkey]
      exact ih hrest

end Places

/-- The platform that a value names: by its tag, or by the only key of an object. -/
def Platform.named? : Json → Option Platform
  | .object [(tag, _)] => ofJson? (.string tag)
  | v => ofJson? v

theorem Platform.named?_of_ofJson {v : Json} {p : Platform} (h : shape.ofJson v = .ok p) :
    named? v = some p := by
  have htag : ∀ tag, Json.Shape.named tags tag = .ok p → ofJson? (.string tag) = some p := by
    intro tag hname
    rw [← Shape.toOption_platform rfl]
    show (Json.Shape.named tags tag).toOption = some p
    rw [hname]
    rfl
  unfold shape Shape.variant at h
  dsimp only at h
  split at h
  · exact htag _ h
  · split at h
    · cases h
    · next hname =>
      split at h <;> cases h <;> exact htag _ hname
  · cases h
  · cases h

namespace RuleDocument

/-- The platform that a document names, as it is written: in a field, or as the first item. -/
def namedPlatform : Json → Option Platform
  | .object fields => (lookup "platform" fields).bind Platform.named?
  | .array items => items.head?.bind Platform.named?
  | _ => none

theorem platform_of_ofPositions {items : List Json} {d : Draft}
    (h : Layout.ofPositions layout.empty layout.slots items = .ok d) :
    d.platform = items.head?.bind Platform.named? := by
  cases items with
  | nil =>
    cases h
    rfl
  | cons item items =>
    rw [layout, Layout.ofPositions] at h
    split at h
    · cases h
    · next d₁ hfirst =>
      obtain ⟨p, hp, rfl⟩ := Json.map_eq_ok.1 hfirst
      show d.platform = Platform.named? item
      rw [Platform.named?_of_ofJson hp]
      -- the other items are for other places
      refine Layout.ofPositions_invariant (fun d => d.platform = some p) ?_ rfl h
      intro slot hslot item _ d₂ d₃ hd hof
      simp only [List.mem_cons, List.not_mem_nil, or_false] at hslot
      rcases hslot with rfl | rfl
      · obtain ⟨_, -, rfl⟩ := Json.map_eq_ok.1 hof
        exact hd
      · obtain ⟨_, -, rfl⟩ := Json.map_eq_ok.1 hof
        exact hd

theorem platform_of_ofJson {v : Json} {doc : RuleDocument} (h : shape.ofJson v = .ok doc) :
    doc.platform = (namedPlatform v).getD .core := by
  cases v with
  | object fields =>
    obtain ⟨d, hfold, hfinish⟩ := Layout.ofObject_eq_ok_iff.1 h
    cases hfinish
    obtain ⟨-, hplatform, -⟩ := foldlM_take_iff.1 hfold
    have hnamed := eq_lookup_of_foldlM_fillAt (fun _ _ => Platform.named?_of_ofJson) hplatform
    exact congrArg (Option.getD · .core) hnamed
  | array items =>
    obtain ⟨-, d, hpositions, hfinish⟩ := Layout.ofList_eq_ok_iff.1 h
    cases hfinish
    exact congrArg (Option.getD · .core) (platform_of_ofPositions hpositions)
  | _ => cases h

/-- **The platform of a document is that which its text names**, and that of all platforms if it
names none. -/
theorem platform_of_parse {text : String} {doc : RuleDocument} (h : parse text = .ok doc) :
    ∃ v, (Json.valueReader Json.maxDepth).parse text = .ok v ∧
      doc.platform = (namedPlatform v).getD .core := by
  obtain ⟨v, hv, hof⟩ := backed_shape.parse h
  exact ⟨v, hv, platform_of_ofJson hof⟩

end RuleDocument

/-! ### Rules of documents and of sources -/

namespace RuleSet

theorem rules_forPlatform? (set : RuleSet) (platform : Option Platform) :
    (set.forPlatform? platform).rules = set.rules.filter fun r => r.platform.Selected platform := by
  cases platform with
  | none =>
    have hall : ∀ r ∈ set.rules, decide (r.platform.Selected none) = true :=
      fun _ _ => decide_eq_true trivial
    exact (List.filter_eq_self.2 hall).symm
  | some chosen => simp [forPlatform?, forPlatform, Platform.Selected, or_comm]

theorem settings_of_mem_openTaxonomy {platform : Platform} {logPrefix : Option String} {r : Rule}
    (h : r ∈ (openTaxonomy platform logPrefix).rules) :
    r.platform = platform ∧ Shows r.logPrefix logPrefix := by
  rcases List.mem_append.1 h with h | h
  · simp only [List.mem_cons, List.not_mem_nil, or_false] at h
    rcases h with rfl | rfl | rfl <;> exact ⟨rfl, shows_nonEmpty logPrefix⟩
  · split_ifs at h
    · cases h
    · rw [List.mem_singleton.1 h]
      exact ⟨rfl, shows_nonEmpty logPrefix⟩

end RuleSet

namespace Cli

/-- **The rules of a document**: those of the entries whose platform is chosen, in order, each with
the platform and the prefix that its entry comes to. -/
theorem rulesOfDocument_eq_ok {doc : RuleDocument} (hbuild : ∃ set, doc.build = .ok set)
    (platform : Option Platform) (logPrefix : Option String) :
    ∃ set, rulesOfDocument doc platform logPrefix = .ok set ∧
      List.Forall₂ (fun entry r => entry.BuiltAs r ∧ r.platform = entry.platform.getD doc.platform ∧
          Shows r.logPrefix (entry.resolvedPrefix doc.logPrefix logPrefix))
        (doc.rules.filter fun entry => (entry.platform.getD doc.platform).Selected platform)
        set.rules := by
  -- whether the entries can be built has nothing to do with prefixes
  have hsound := RuleDocument.exists_build_eq_ok_iff.1 hbuild
  have hfallback : ∃ set, (doc.withFallbackPrefix logPrefix).build = .ok set :=
    RuleDocument.exists_build_eq_ok_iff.2 hsound
  obtain ⟨all, hall⟩ := hfallback
  refine ⟨_, Json.map_eq_ok.2 ⟨all, hall, rfl⟩, ?_⟩
  rw [RuleSet.rules_forPlatform?]
  refine List.rel_filter ?_ ((RuleDocument.forall₂_of_build_eq_ok hall).imp ?_)
  · rintro entry r ⟨-, hplatform, -⟩
    simp only [hplatform]
  · intro entry r hr
    obtain ⟨heq, -⟩ := RuleEntry.build_eq_ok hr
    refine ⟨RuleEntry.builtAs_of_build hr, ?_, ?_⟩
    · rw [heq]
      rfl
    · rw [heq, RuleEntry.resolvedPrefix_eq]
      exact shows_nonEmpty _

/-- **Platforms and prefixes fall back through all levels.** If the rules come from a document that
can be read and built, then loading them gives, in the order of the document, the rules of just
those entries whose platform is chosen on the command line, and the diagnostics of a rule carry the
first prefix that is there, of the entry, of the document and of the command line. Without a
document, the rules are those of the open taxonomy with the prefix of the command line. -/
theorem loadRules_resolved (env : Environment) (source : RuleSource) :
    (∀ path text doc, source.path = some path → env.read path = .ok text →
      RuleDocument.parse text = .ok doc → (∃ set, doc.build = .ok set) →
      ∃ v set, (Json.valueReader Json.maxDepth).parse text = .ok v ∧
        loadRules env source = .ok set ∧
        List.Forall₂ (fun entry r => entry.BuiltAs r ∧
            r.platform = entry.resolvedPlatform (RuleDocument.namedPlatform v) ∧
            Shows r.logPrefix (entry.resolvedPrefix doc.logPrefix source.logPrefix) ∧
            ∀ e, ∀ d ∈ r.validate e,
              d.Carries (entry.resolvedPrefix doc.logPrefix source.logPrefix))
          (doc.rules.filter fun entry =>
            (entry.resolvedPlatform (RuleDocument.namedPlatform v)).Selected source.platform)
          set.rules) ∧
      (source.path = none →
        loadRules env source =
          .ok (.openTaxonomy (source.platform.getD .core) source.logPrefix) ∧
        ∀ r ∈ (RuleSet.openTaxonomy (source.platform.getD .core) source.logPrefix).rules,
          r.platform = source.platform.getD .core ∧ Shows r.logPrefix source.logPrefix ∧
            ∀ e, ∀ d ∈ r.validate e, d.Carries source.logPrefix) := by
  constructor
  · intro path text doc hpath htext hdoc hbuild
    obtain ⟨v, hv, hplatform⟩ := RuleDocument.platform_of_parse hdoc
    obtain ⟨set, hset, hrules⟩ := rulesOfDocument_eq_ok hbuild source.platform source.logPrefix
    refine ⟨v, set, hv, ?_, ?_⟩
    · simp only [loadRules, readDocument, hpath, htext, hdoc, hset]
    · simp only [RuleEntry.resolvedPlatform_eq, ← hplatform]
      refine hrules.imp ?_
      rintro entry r ⟨hbuilt, hr, hshown⟩
      exact ⟨hbuilt, hr, hshown, fun e d hd => Rule.carries_of_mem_validate hshown hd⟩
  · intro hpath
    refine ⟨by simp only [loadRules, hpath], fun r hr => ?_⟩
    obtain ⟨hplatform, hshown⟩ := RuleSet.settings_of_mem_openTaxonomy hr
    exact ⟨hplatform, hshown, fun e d hd => Rule.carries_of_mem_validate hshown hd⟩

/-- A document with an empty prefix and without a platform, and rules with and without them. -/
def layeredText : String :=
  "\x7b\"log_prefix\":\"\",\"rules\":[\x7b\"kind\":\"unique_global_context\"\x7d," ++
    "[\"unique_global_context\",null,\"react\",\"R\"]," ++
    "[\"unique_global_context\",null,\"browser\",\"B\"]]\x7d"

/-- What it says. -/
def layered : RuleDocument where
  platform := .core
  logPrefix := some ""
  rules :=
    [⟨.unique, none, none, none⟩, ⟨.unique, none, some .react, some "R"⟩,
      ⟨.unique, none, some .browser, some "B"⟩]

/-- The document at every path. -/
def layeredInput : Environment where
  read _ := .ok layeredText
  stdin := .error .notFound
  logSetting := none

theorem loadRules_resolved_layered :
    (∃ set first second,
      loadRules layeredInput ⟨some "rules", some .browser, some "CLI"⟩ = .ok set ∧
      set.rules = [first, second] ∧ first.platform = .core ∧ second.platform = .browser ∧
      (∀ e, ∀ d ∈ first.validate e, d.tag = "｢objectiv｣") ∧
      ∀ e, ∀ d ∈ second.validate e, d.logPrefix = some "B") ∧
    ∃ set, loadRules layeredInput ⟨none, none, some "CLI"⟩ = .ok set ∧
      ∀ r ∈ set.rules, r.platform = .core ∧ r.logPrefix = some "CLI" := by
  have hread : (RuleDocument.parse layeredText).toOption = some layered := by decide +kernel
  have hvalue : ((Json.valueReader Json.maxDepth).parse layeredText).toOption.map
      RuleDocument.namedPlatform = some none := by decide +kernel
  constructor
  · cases hdoc : RuleDocument.parse layeredText with
    | error e => simp [hdoc, Except.toOption] at hread
    | ok doc =>
      obtain rfl : doc = layered := by simpa [hdoc, Except.toOption] using hread
      obtain ⟨v, ⟨rules⟩, hv, hset, hrules⟩ :=
        (loadRules_resolved layeredInput ⟨some "rules", some .browser, some "CLI"⟩).1 _ _ _ rfl rfl
          hdoc ⟨_, rfl⟩
      have hnone : RuleDocument.namedPlatform v = none := by
        simpa [hv, Except.toOption] using hvalue
      rw [hnone] at hrules
      -- the rule for another platform is left out
      obtain _ | @⟨_, first, _, _, hfirst, _ | @⟨_, second, _, _, hsecond, _ | _⟩⟩ := hrules
      refine ⟨_, first, second, hset, rfl, hfirst.2.1, hsecond.2.1, fun e d hd => ?_,
        fun e d hd => ?_⟩
      · exact (hfirst.2.2.2 e d hd).tag.2 (.inr rfl)
      · exact ((hsecond.2.2.2 e d hd).logPrefix "B").2 ⟨rfl, by decide⟩
  · obtain ⟨hset, hrules⟩ := (loadRules_resolved layeredInput ⟨none, none, some "CLI"⟩).2 rfl
    refine ⟨_, hset, fun r hr => ?_⟩
    obtain ⟨hplatform, hshown, -⟩ := hrules r hr
    exact ⟨hplatform, (hshown "CLI").2 ⟨rfl, by decide⟩⟩

end Cli

end EventTaxonomy
