import EventTaxonomy.Proofs.Building
import EventTaxonomy.Proofs.RulePositions

/-!
# The listing of a rule can be loaded again

`Rule.toJson` lists a rule field by field, with `null` for what is not there. An entry of a document
may have `null` in all of these places but one, its context name. Without that, the listing is an
entry: `Rule.entry` is the one that it describes (`Rule.ofJson_listed`), for any rule at all.

A rule that was built has good names, so this entry is built in turn, and gives back the rule itself
(`Rule.build_entry`). `Rule.build_of_listing` puts the two together.
-/

namespace EventTaxonomy

/-! ### Values that may be `null` -/

/-- An object without the field of a key, if its value is `null`. -/
def Json.withoutNull (key : String) : Json → Json
  | .object fields => .object (fields.filter fun field => ¬ (field.1 = key ∧ field.2 = .null))
  | v => v

section OfOption

variable {α β : Type} {look : Json → Option β} {f : α → Json} {g : α → β} {o : Option α}

theorem orNull_ofOption (h : ∀ a ∈ o, look (f a) = some (g a)) :
    OrNull look (some (.ofOption f o)) := by
  rintro _ ⟨⟩
  cases o with
  | none => exact .inl rfl
  | some a => exact .inr (by rw [Json.ofOption, h a rfl]; rfl)

theorem look_ofOption (hnull : look .null = none) (h : ∀ a ∈ o, look (f a) = some (g a)) :
    look (.ofOption f o) = o.map g := by
  cases o with
  | none => exact hnull
  | some a => exact h a rfl

end OfOption

/-! ### The entry of a rule -/

namespace Check

/-- The check as an entry has it. -/
def toEntry : Check → EntryCheck
  | missing name => .missing name.text
  | unique => .unique
  | location name occurrence => .location name.text occurrence.isOnce occurrence.position

theorem toCheck_toEntry (check : Check) : check.toEntry.toCheck = check := by
  cases check with
  | missing name => rfl
  | unique => rfl
  | location name occurrence => cases occurrence <;> rfl

theorem contextName_toEntry (check : Check) :
    check.toEntry.contextName = check.contextName.map ContextName.text := by
  cases check <;> rfl

theorem flags_toEntry (check : Check) :
    check.toEntry.flags = check.occurrence.map fun o => (o.isOnce, o.position) := by
  cases check <;> rfl

end Check

namespace Rule

/-- The entry with all settings of a rule. -/
def entry (r : Rule) : RuleEntry where
  check := r.check.toEntry
  eventTypes := r.events.allowList.map (List.map EventTypeName.text)
  platform := some r.platform
  logPrefix := r.logPrefix

/-- The fields of the listing, without a context name that is `null`. -/
def listed (r : Rule) : Fields :=
  optionalField "context_name" (fun (name : ContextName) => .string name.text) r.contextName ++
    [("event_types", .ofOption (fun types => stringArray (types.map EventTypeName.text))
        r.events.allowList),
      ("kind", .string r.kind.tag), ("log_prefix", .ofOption Json.string r.logPrefix)] ++
    optionalField "once" (fun o => .bool o.isOnce) r.check.occurrence ++
    [("platform", r.platform.toJson)] ++
    optionalField "position" (fun o => .ofOption Json.nat o.position) r.check.occurrence

variable (r : Rule)

theorem withoutNull_toJson : r.toJson.withoutNull "context_name" = .object r.listed := by
  unfold toJson listed Json.withoutNull Rule.contextName Rule.kind
  cases r.check <;>
    simp [Check.contextName, Check.occurrence, optionalField, Json.ofOption, stringArray,
      Function.comp_def]

/-! ### What is listed under each key -/

theorem lookup_contextName_listed :
    lookup "context_name" r.listed = r.contextName.map fun name => .string name.text := by
  simp [listed, lookup, lookup_append, lookup_optionalField]

theorem lookup_eventTypes_listed :
    lookup "event_types" r.listed = some (.ofOption
      (fun types => stringArray (types.map EventTypeName.text)) r.events.allowList) := by
  simp [listed, lookup, lookup_append, lookup_optionalField]

theorem lookup_kind_listed : lookup "kind" r.listed = some (.string r.kind.tag) := by
  simp [listed, lookup, lookup_append, lookup_optionalField]

theorem lookup_logPrefix_listed :
    lookup "log_prefix" r.listed = some (.ofOption Json.string r.logPrefix) := by
  simp [listed, lookup, lookup_append, lookup_optionalField]

theorem lookup_once_listed :
    lookup "once" r.listed = r.check.occurrence.map fun o => .bool o.isOnce := by
  simp [listed, lookup, lookup_append, lookup_optionalField]

theorem lookup_platform_listed : lookup "platform" r.listed = some r.platform.toJson := by
  simp [listed, lookup, lookup_append, lookup_optionalField]

theorem lookup_position_listed :
    lookup "position" r.listed =
      r.check.occurrence.map fun o => .ofOption Json.nat o.position := by
  simp [listed, lookup, lookup_append, lookup_optionalField]

/-- The keys of an entry of its kind are those of the listing, in another order. -/
theorem keys_listed : (r.listed.map Prod.fst).Perm ("kind" :: RuleEntry.keys r.kind) := by
  unfold listed Rule.contextName Rule.kind
  cases r.check with
  | missing name =>
    show List.Perm ["context_name", "event_types", "kind", "log_prefix", "platform"]
      ("kind" :: RuleEntry.keys .missingGlobalContext)
    decide
  | unique =>
    show List.Perm ["event_types", "kind", "log_prefix", "platform"]
      ("kind" :: RuleEntry.keys .uniqueGlobalContext)
    decide
  | location name occurrence =>
    show List.Perm ["context_name", "event_types", "kind", "log_prefix", "once", "platform",
      "position"] ("kind" :: RuleEntry.keys .locationContext)
    decide

theorem nodup_listed : (r.listed.map Prod.fst).Nodup := by
  refine r.keys_listed.nodup_iff.2 ?_
  cases r.kind <;> decide

variable {r}

theorem PositionFits.word?_nat {occurrence : Occurrence} (h : r.PositionFits)
    (hoccurrence : r.check.occurrence = some occurrence) :
    ∀ n ∈ occurrence.position, (Json.nat n).word? = some n := by
  intro n hn
  cases hcheck : r.check with
  | missing name => rw [hcheck] at hoccurrence; cases hoccurrence
  | unique => rw [hcheck] at hoccurrence; cases hoccurrence
  | location name o =>
    rw [hcheck] at hoccurrence
    cases hoccurrence
    cases occurrence with
    | onceAt m =>
      cases hn
      exact EventTaxonomy.word?_nat (h name n hcheck)
    | _ => cases hn

/-! ### The listing is an entry -/

theorem conforms_listed (h : r.PositionFits) : RuleEntry.Conforms r.kind r.listed := by
  constructor
  case tag =>
    rw [lookup_kind_listed]
    rfl
  case keys =>
    intro field hfield
    exact List.mem_cons.1 (r.keys_listed.subset (List.mem_map.2 ⟨field, hfield, rfl⟩))
  case named =>
    intro hkind
    rw [lookup_contextName_listed, Option.isSome_map]
    unfold Rule.kind at hkind
    unfold Rule.contextName
    cases hcheck : r.check with
    | unique => rw [hcheck] at hkind; exact absurd rfl hkind
    | _ => rfl
  case contextName =>
    rw [lookup_contextName_listed]
    intro v hv
    obtain ⟨name, -, rfl⟩ := Option.map_eq_some_iff.1 hv
    rfl
  case once =>
    rw [lookup_once_listed]
    intro v hv
    obtain ⟨occurrence, -, rfl⟩ := Option.map_eq_some_iff.1 hv
    rfl
  case position =>
    rw [lookup_position_listed]
    cases hoccurrence : r.check.occurrence with
    | none => exact fun v hv => absurd hv (by simp)
    | some occurrence => exact orNull_ofOption (h.word?_nat hoccurrence)
  case eventTypes =>
    rw [lookup_eventTypes_listed]
    exact orNull_ofOption fun _ _ => strings?_stringArray _
  case platform =>
    rw [lookup_platform_listed]
    rintro _ ⟨⟩
    rw [Platform.ofJson?_toJson]
    exact .inr rfl
  case logPrefix =>
    rw [lookup_logPrefix_listed]
    exact orNull_ofOption (g := id) fun _ _ => rfl

theorem described_listed (h : r.PositionFits) : RuleEntry.described r.kind r.listed = r.entry := by
  have hcheck : RuleEntry.describedCheck r.kind r.listed = r.check.toEntry := by
    have hposition : (lookup "position" r.listed).bind Json.word? =
        r.check.occurrence.bind Occurrence.position := by
      rw [lookup_position_listed]
      cases hoccurrence : r.check.occurrence with
      | none => rfl
      | some occurrence =>
        exact (look_ofOption rfl (h.word?_nat hoccurrence)).trans Option.map_id'
    unfold RuleEntry.describedCheck
    rw [hposition, lookup_contextName_listed, lookup_once_listed]
    unfold Rule.kind Rule.contextName
    cases r.check <;> rfl
  have htypes : (lookup "event_types" r.listed).bind Json.strings? = r.entry.eventTypes := by
    rw [lookup_eventTypes_listed]
    exact look_ofOption rfl fun _ _ => strings?_stringArray _
  have hlog : (lookup "log_prefix" r.listed).bind Json.string? = r.logPrefix := by
    rw [lookup_logPrefix_listed]
    cases r.logPrefix <;> rfl
  have hplatform : (lookup "platform" r.listed).bind Platform.ofJson? = some r.platform := by
    rw [lookup_platform_listed]
    exact Platform.ofJson?_toJson _
  rw [RuleEntry.described, hcheck, htypes, hplatform, hlog]
  rfl

/-- **The listing of a rule is an entry**, once a context name that is `null` has been dropped. -/
theorem ofJson_listed (h : r.PositionFits) :
    RuleEntry.shape.ofJson (r.toJson.withoutNull "context_name") = .ok r.entry := by
  have hplatform : ∀ v ∈ lookup "platform" r.listed, v.isObject = false := by
    rw [lookup_platform_listed]
    rintro _ ⟨⟩
    rfl
  have hconforms := conforms_listed h
  have hposition : ∀ v ∈ lookup "position" r.listed, v.allNumbers Number.fits = true :=
    fun v hv => (hconforms.position.small .of_word? hv).fits
  rw [withoutNull_toJson, RuleEntry.ofJson_eq_ok_iff r.nodup_listed hplatform hposition]
  exact ⟨r.kind, hconforms, (described_listed h).symm⟩

/-! ### The entry gives back the rule -/

theorem nonEmpty_logPrefix (r : Rule) : nonEmpty (r.logPrefix.getD "") = r.logPrefix := by
  cases h : r.logPrefix with
  | none => rfl
  | some text =>
    have hne : text ≠ "" := fun hempty => r.logPrefix_ne (hempty ▸ h)
    exact if_neg hne

variable {entry : RuleEntry} {platform : Platform} {logPrefix : Option String}

theorem eventTypes_entry (h : entry.build platform logPrefix = .ok r) :
    r.entry.eventTypes = entry.eventTypes :=
  (RuleEntry.builtAs_of_build h).allowList

theorem sound_entry (h : entry.build platform logPrefix = .ok r) : r.entry.Sound := by
  have hsound := RuleEntry.exists_build_eq_ok_iff.1 ⟨r, h⟩
  have hbuilt := RuleEntry.builtAs_of_build h
  refine ⟨?_, ?_, ?_⟩
  · intro types htypes
    exact hsound.eventTypes types ((eventTypes_entry h).symm.trans htypes)
  · intro text htext
    refine hsound.contextName text ?_
    rw [← hbuilt.contextName]
    exact (r.check.contextName_toEntry).symm.trans htext
  · intro n hflags
    refine hsound.position n ?_
    rw [← hbuilt.flags]
    exact (r.check.flags_toEntry).symm.trans hflags

/-- **A rule that was built is that of its entry**, whatever platform there is to fall back to. -/
theorem build_entry (h : entry.build platform logPrefix = .ok r) (fallback : Platform) :
    r.entry.build fallback none = .ok r := by
  obtain ⟨hr, -⟩ := RuleEntry.build_eq_ok h
  have hevents : r.entry.matcher = r.events := by
    unfold RuleEntry.matcher
    rw [eventTypes_entry h, hr]
    rfl
  obtain ⟨r', hr'⟩ := RuleEntry.exists_build_eq_ok_iff.2 (sound_entry h)
  rw [hr', (RuleEntry.build_eq_ok hr').1]
  refine congrArg Except.ok (Rule.ext rfl hevents ?_ r.check.toCheck_toEntry)
  show nonEmpty ((r.logPrefix.or none).getD "") = r.logPrefix
  rw [Option.or_none, nonEmpty_logPrefix]

/-- **The listing of a rule can be loaded again.** For a rule that was built, with any platform and
prefix to fall back to, the listing less an absent context name is an entry. Whatever platform there
is to fall back to, and without a prefix, building this entry gives the same rule: its platform,
matcher, prefix and check, and so what it is about and what it finds wrong. -/
theorem build_of_listing (h : entry.build platform logPrefix = .ok r) (hfits : entry.PositionFits) :
    ∃ listed, RuleEntry.shape.ofJson (r.toJson.withoutNull "context_name") = .ok listed ∧
      ∀ fallback, listed.build fallback none = .ok r :=
  ⟨r.entry, ofJson_listed (hfits.build h), build_entry h⟩

/-- An entry with the largest index, a list of event types that is empty but there, and a prefix
that is there to be none. -/
def extremeEntry : RuleEntry :=
  ⟨.location "RootLocationContext" true (some 18446744073709551615), some [], none, some ""⟩

theorem build_of_listing_extreme :
    ∃ r, extremeEntry.build .react (some "App") = .ok r ∧ extremeEntry.PositionFits ∧
      ∃ listed, RuleEntry.shape.ofJson (r.toJson.withoutNull "context_name") = .ok listed ∧
        ∀ fallback, listed.build fallback none = .ok r := by
  have hbuild : extremeEntry.build .react (some "App") =
      .ok (((Rule.location .react ⟨"RootLocationContext"⟩).onceAt 18446744073709551615).withEvents
        (.oneOf [])) := rfl
  have hfits : extremeEntry.PositionFits := by
    rintro _ ⟨⟩
    decide
  exact ⟨_, hbuild, hfits, build_of_listing hbuild hfits⟩

end Rule

end EventTaxonomy
