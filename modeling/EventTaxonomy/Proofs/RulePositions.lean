import EventTaxonomy.Cli.Run
import EventTaxonomy.Proofs.DocumentRoundTrip
import EventTaxonomy.Proofs.Satisfaction

/-!
# The indices that rules ask for fit a word

A location rule may ask for an index, and a diagnostic repeats it. The index comes from a document,
where no integer is larger than a word. It takes several steps to see that it comes out of the
document unchanged, because entries and documents may be written as objects or as lists.

`Shape.Yields` says that all data of a shape has a property, from whichever source. For records it
follows from an invariant of the fields that are filled in so far (`Shape.Yields.positional`). So
all rules that a command can load ask for words only (`Cli.positionFits_of_loadRules`).
-/

namespace EventTaxonomy

namespace Json

variable {α β σ : Type}

/-! ### Properties of the data of a shape -/

/-- The data of the shape has the property, if it is read off a text, or taken from a value the
integers of which fit a word. -/
structure Shape.Yields (shape : Shape α) (p : α → Prop) : Prop where
  of_run : ∀ {depth : Nat} {s r : List Char} {a : α},
    (shape.read depth).run s = .ok (a, r) → p a
  of_ofJson : ∀ {v : Json} {a : α},
    v.allNumbers Number.fits = true → shape.ofJson v = .ok a → p a

namespace Shape.Yields

variable {p : α → Prop} {q : β → Prop}

/-- Of a faithful shape only the values matter. -/
theorem of_faithful {shape : Shape α} (h : shape.Faithful)
    (hp : ∀ v a, v.allNumbers Number.fits = true → shape.ofJson v = .ok a → p a) :
    shape.Yields p where
  of_run {depth s r a} ha := by
    obtain ⟨v, hv, hof⟩ := (h depth).1 ha
    exact hp v a (allNumbers_fits_of_run hv) hof
  of_ofJson {v a} := hp v a

theorem map {shape : Shape α} (h : shape.Yields p) {f : α → β} (hf : ∀ a, p a → q (f a)) :
    (shape.map f).Yields q where
  of_run hb := by
    obtain ⟨⟨a, r⟩, ha, he⟩ := map_eq_ok.1 hb
    cases he
    exact hf a (h.of_run ha)
  of_ofJson hfits hb := by
    obtain ⟨a, ha, rfl⟩ := map_eq_ok.1 hb
    exact hf a (h.of_ofJson hfits ha)

/-- Data that is put in a place which the property is not about. -/
theorem map_of_forall (shape : Shape α) {f : α → β} (hf : ∀ a, q (f a)) :
    (shape.map f).Yields q :=
  map (p := fun _ => True) ⟨fun _ => trivial, fun _ _ => trivial⟩ fun a _ => hf a

end Shape.Yields

/-! ### Records -/

theorem readFields_invariant {entry : σ → String → Except Mismatch (Reader σ)} {inv : σ → Prop}
    (hentry : ∀ {state name reader}, inv state → entry state name = .ok reader →
      ∀ {s state' r}, reader.run s = .ok (state', r) → inv state')
    {first : Bool} {state state' : σ} {s r : List Char} (hinv : inv state)
    (h : readFields entry first state s = .ok (state', r)) : inv state' := by
  fun_induction readFields entry first state s with
  | case1 => cases h
  | case2 first state s r hn =>
    cases h
    exact hinv
  | case3 => cases h
  | case4 => cases h
  | case5 => cases h
  | case6 first state s name t hn value he u hu state₁ w hw ih => exact ih (hentry hinv he hw) h

namespace Layout

variable {layout : Layout σ α} {inv : σ → Prop}

theorem take_invariant
    (hentry : ∀ {state name shape}, inv state → layout.entry state name = .ok shape →
      shape.Yields inv)
    {fields : Fields} (hfits : ∀ field ∈ fields, field.2.allNumbers Number.fits = true)
    {state state' : σ} (hinv : inv state)
    (h : fields.foldlM layout.take state = some state') : inv state' := by
  induction fields generalizing state with
  | nil =>
    cases h
    exact hinv
  | cons field fields ih =>
    obtain ⟨hfield, hrest⟩ := List.forall_mem_cons.1 hfits
    obtain ⟨state₁, htake, hfold⟩ := Option.bind_eq_some_iff.1 h
    obtain ⟨shape, hshape, hof⟩ := take_eq_some_iff.1 htake
    exact ih hrest ((hentry hinv hshape).of_ofJson hfield hof) hfold

theorem takePositions_invariant {slots : List (Slot σ)}
    (hslots : ∀ slot ∈ slots, ∀ state, inv state → (slot.fill state).Yields inv) {depth : Nat}
    {first : Bool} {state state' : σ} {count count' : Nat} {s r : List Char} (hinv : inv state)
    (h : takePositions depth first state count s slots = .ok ((state', count'), r)) :
    inv state' := by
  induction slots generalizing first state count s with
  | nil =>
    obtain ⟨t, -, he⟩ := map_eq_ok.1 h
    cases he
    exact hinv
  | cons slot slots ih =>
    obtain ⟨hslot, hrest⟩ := List.forall_mem_cons.1 hslots
    simp only [takePositions] at h
    split at h
    · cases h
    · cases h
      exact hinv
    · split at h
      · cases h
      · next hrun => exact ih hrest ((hslot state hinv).of_run hrun) h

theorem ofPositions_invariant (inv : σ → Prop) {slots : List (Slot σ)} {items : List Json}
    (hslots : ∀ slot ∈ slots, ∀ item ∈ items, ∀ ⦃state state'⦄, inv state →
      (slot.fill state).ofJson item = .ok state' → inv state')
    {state state' : σ} (hinv : inv state) (h : ofPositions state slots items = .ok state') :
    inv state' := by
  induction slots generalizing state items with
  | nil =>
    cases h
    exact hinv
  | cons slot slots ih =>
    cases items with
    | nil =>
      cases h
      exact hinv
    | cons item items =>
      rw [ofPositions] at h
      split at h
      · cases h
      · next hof =>
        refine ih (fun slot hslot item hitem => ?_) (hslots _ (by simp) _ (by simp) hinv hof) h
        exact hslots slot (List.mem_cons_of_mem _ hslot) item (List.mem_cons_of_mem _ hitem)

end Layout

/-- **What the fields of a record keep up, its data shows**, however the record is written. -/
theorem Shape.Yields.positional {layout : Layout σ α} {p : α → Prop} (inv : σ → Prop)
    (hempty : inv layout.empty)
    (hslots : ∀ slot ∈ layout.slots, ∀ state, inv state → (slot.fill state).Yields inv)
    (hothers : layout.others = none)
    (hfinish : ∀ state a, inv state → layout.finish state = .ok a → p a) :
    (Shape.positional layout).Yields p := by
  have hentry : ∀ {state name shape}, inv state → layout.entry state name = .ok shape →
      shape.Yields inv := by
    intro state name shape hinv h
    rcases Layout.entry_eq_ok h with ⟨slot, hslot, -, rfl⟩ | ⟨keep, hkeep, -⟩
    · exact hslots slot hslot state hinv
    · rw [hothers] at hkeep
      cases hkeep
  constructor
  · intro depth s r a h
    obtain ⟨c, t, -, ⟨-, d, -, h⟩ | ⟨-, d, -, h⟩⟩ := run_positional_eq_ok_iff.1 h
    · obtain ⟨state, hread, hstate⟩ := Layout.takeObject_eq_ok.1 h
      refine hfinish state a (readFields_invariant ?_ hempty hread) hstate
      intro state name reader hinv he u state' w hrun
      obtain ⟨shape, hshape, rfl⟩ := map_eq_ok.1 he
      exact (hentry hinv hshape).of_run hrun
    · obtain ⟨state, count, hread, hstate⟩ := Layout.takeList_eq_ok_iff.1 h
      exact hfinish state a (Layout.takePositions_invariant hslots hempty hread) hstate
  · intro v a hfits h
    cases v with
    | object fields =>
      obtain ⟨state, hfold, hstate⟩ := Layout.ofObject_eq_ok_iff.1 h
      have hvalues := allNumbersFields_iff.1 hfits
      exact hfinish state a (Layout.take_invariant hentry hvalues hempty hfold) hstate
    | array items =>
      obtain ⟨-, state, hread, hstate⟩ := Layout.ofList_eq_ok_iff.1 h
      have hitems := allNumbersItems_iff.1 hfits
      refine hfinish state a (Layout.ofPositions_invariant inv ?_ hempty hread) hstate
      intro slot hslot item hitem state state' hinv hof
      exact (hslots slot hslot state hinv).of_ofJson (hitems item hitem) hof
    | _ => cases h

/-- The payload of a record of several kinds is part of the record. -/
theorem fits_of_ofJson_tagged {κ : Type} {description tag : String} {kind : Shape κ} {v : Json}
    {x : κ × Json} (h : (Shape.tagged description tag kind).ofJson v = .ok x)
    (hfits : v.allNumbers Number.fits = true) : x.2.allNumbers Number.fits = true := by
  cases v with
  | object fields =>
    obtain ⟨k, payload⟩ := x
    obtain ⟨-, rfl⟩ := ofObject_taggedLayout_eq_ok_iff.1 h
    refine allNumbersFields_iff.2 fun field hfield => ?_
    exact allNumbersFields_iff.1 hfits field (List.mem_of_mem_filter hfield)
  | array items =>
    cases items with
    | nil => cases h
    | cons item items =>
      obtain ⟨k, -, rfl⟩ := map_eq_ok.1 h
      exact (Bool.and_eq_true_iff.1 hfits).2
  | _ => cases h

theorem Shape.size_le_wordMax {v : Json} {n : Nat} (hfits : v.allNumbers Number.fits = true)
    (h : Shape.size.ofJson v = .ok n) : n ≤ wordMax := by
  have hword : v.word? = some n := by
    rw [← toOption_size hfits, h]
    rfl
  unfold word? at hword
  split at hword
  · next m =>
    split_ifs at hword with hm
    cases hword
    exact hm
  · cases hword

theorem Shape.yields_size_nullable :
    (Shape.nullable Shape.size).Yields fun size => ∀ n ∈ size, n ≤ wordMax := by
  have hsize : Shape.size.Faithful := .scalar (by simp [unwanted]) (by simp [unwanted])
  refine .of_faithful hsize.nullable ?_
  intro v size hfits h n hn
  by_cases hnull : v = .null
  · subst hnull
    cases h
    cases hn
  · rw [ofJson_nullable_of_ne hnull] at h
    obtain ⟨m, hm, rfl⟩ := map_eq_ok.1 h
    cases hn
    exact size_le_wordMax hfits hm

end Json

/-! ### Entries and documents -/

open Json (Shape Layout)

/-- An index that the entry asks for fits a word. -/
def RuleEntry.PositionFits (entry : RuleEntry) : Prop :=
  ∀ n ∈ entry.check.position, n ≤ Json.wordMax

namespace RuleEntry

/-- An index that was read fits a word. -/
def Draft.PositionFits (d : Draft) : Prop := ∀ n ∈ d.position.join, n ≤ Json.wordMax

theorem Draft.positionFits_of_slot {slot : Json.Slot Draft} (hslot : slot ∈ slots .locationContext)
    (d : Draft) (hd : d.PositionFits) : (slot.fill d).Yields Draft.PositionFits := by
  simp only [slots, List.mem_cons, List.not_mem_nil, or_false] at hslot
  -- only one of the fields has to do with the index
  rcases hslot with rfl | rfl | rfl | rfl | rfl | rfl
  · exact .map_of_forall _ fun _ => hd
  · exact .map_of_forall _ fun _ => hd
  · refine Shape.Yields.map (p := fun position => ∀ n ∈ position, n ≤ Json.wordMax) ?_ ?_
    · exact Shape.yields_size_nullable
    · exact fun position hposition => hposition
  · exact .map_of_forall _ fun _ => hd
  · exact .map_of_forall _ fun _ => hd
  · exact .map_of_forall _ fun _ => hd

theorem positionFits_of_finish {kind : RuleKind} {d : Draft} {entry : RuleEntry}
    (hd : d.PositionFits) (h : finish kind d = .ok entry) : entry.PositionFits := by
  unfold finish at h
  split at h
  · cases h
    simp [PositionFits, Draft.entry, EntryCheck.position]
  · cases h
    simp [PositionFits, Draft.entry, EntryCheck.position]
  · cases h
    exact hd
  · cases h

theorem yields_positionFits : RuleEntry.shape.Yields PositionFits := by
  refine .of_faithful faithful_shape ?_
  intro v entry hfits h
  obtain ⟨⟨kind, payload⟩, htagged, hpayload⟩ := Json.Shape.ofJson_andThen_eq_ok_iff.1 h
  have hyields : (Shape.positional (layout kind)).Yields PositionFits := by
    refine .positional Draft.PositionFits ?_ ?_ rfl ?_
    · intro n hn
      cases hn
    · intro slot hslot d hd
      exact Draft.positionFits_of_slot (slots_subset kind hslot) d hd
    · intro d entry hd hfinish
      exact positionFits_of_finish hd hfinish
  exact hyields.of_ofJson (Json.fits_of_ofJson_tagged htagged hfits) hpayload

end RuleEntry

namespace RuleDocument

/-- The entries that were read ask for indices that fit a word. -/
def Draft.PositionsFit (d : Draft) : Prop :=
  ∀ entries ∈ d.rules, ∀ entry ∈ entries, entry.PositionFits

theorem yields_positionFits :
    RuleDocument.shape.Yields fun doc => ∀ entry ∈ doc.rules, entry.PositionFits := by
  have hentries : (Shape.list RuleEntry.shape).Yields
      fun entries => ∀ entry ∈ entries, entry.PositionFits := by
    refine .of_faithful RuleEntry.faithful_shape.list ?_
    intro v entries hfits h
    cases v with
    | array items =>
      refine Shape.ofItems_forall ?_ h
      intro item hitem entry hentry
      have hitemfits := Json.allNumbersItems_iff.1 hfits item hitem
      exact RuleEntry.yields_positionFits.of_ofJson hitemfits hentry
    | _ => cases h
  refine .positional Draft.PositionsFit ?_ ?_ rfl ?_
  · intro entries hentries
    cases hentries
  · intro slot hslot d hd
    simp only [layout, List.mem_cons, List.not_mem_nil, or_false] at hslot
    rcases hslot with rfl | rfl | rfl
    · exact .map_of_forall _ fun _ => hd
    · exact .map_of_forall _ fun _ => hd
    · refine hentries.map fun entries hall => ?_
      rintro _ ⟨⟩
      exact hall
  · rintro d doc hd ⟨⟩ entry hentry
    cases hrules : d.rules with
    | none =>
      rw [hrules] at hentry
      cases hentry
    | some entries =>
      rw [hrules] at hentry
      exact hd entries hrules entry hentry

theorem positionFits_of_parse {text : String} {doc : RuleDocument} (h : parse text = .ok doc) :
    ∀ entry ∈ doc.rules, entry.PositionFits := by
  obtain ⟨r, hrun, -⟩ := Json.Reader.parse_eq_ok_iff.1 h
  exact yields_positionFits.of_run hrun

end RuleDocument

/-! ### Rule sets -/

/-- An index that the rule asks for fits a word. -/
def Rule.PositionFits (r : Rule) : Prop :=
  ∀ name n, r.check = .location name (.onceAt n) → n ≤ Json.wordMax

theorem RuleEntry.PositionFits.build {entry : RuleEntry} (h : entry.PositionFits)
    {platform : Platform} {logPrefix : Option String} {r : Rule}
    (hr : entry.build platform logPrefix = .ok r) : r.PositionFits := by
  obtain ⟨rfl, -⟩ := build_eq_ok hr
  intro name n hcheck
  obtain ⟨check, eventTypes, _, _⟩ := entry
  cases check with
  | missing contextName => cases hcheck
  | unique => cases hcheck
  | location contextName once position =>
    cases once with
    | false => cases hcheck
    | true =>
      cases position with
      | none => cases hcheck
      | some m =>
        cases hcheck
        exact h n rfl

theorem RuleSet.positionFits_openTaxonomy {platform : Platform} {logPrefix : Option String} :
    ∀ r ∈ (openTaxonomy platform logPrefix).rules, r.PositionFits := by
  intro r hr name n hcheck
  rcases List.mem_append.1 hr with hr | hr
  · simp only [List.mem_cons, List.not_mem_nil, or_false] at hr
    rcases hr with rfl | rfl | rfl
    · cases hcheck
    · cases hcheck
    · cases hcheck
      exact Nat.zero_le _
  · split_ifs at hr
    · cases hr
    · rw [List.mem_singleton.1 hr] at hcheck
      cases hcheck

namespace Cli

theorem positionFits_of_readDocument {env : Environment} {path : String} {doc : RuleDocument}
    (h : readDocument env path = .ok doc) : ∀ entry ∈ doc.rules, entry.PositionFits := by
  unfold readDocument at h
  split at h
  · cases h
  · split at h
    · cases h
    · next hparse =>
      cases h
      exact RuleDocument.positionFits_of_parse hparse

theorem positionFits_of_rulesOfDocument {doc : RuleDocument} {platform : Option Platform}
    {logPrefix : Option String} {set : RuleSet} (hdoc : ∀ entry ∈ doc.rules, entry.PositionFits)
    (h : rulesOfDocument doc platform logPrefix = .ok set) : ∀ r ∈ set.rules, r.PositionFits := by
  obtain ⟨all, hall, rfl⟩ := Json.map_eq_ok.1 h
  intro r hr
  have hmem : r ∈ all.rules := by
    cases platform with
    | none => exact hr
    | some platform => exact List.mem_of_mem_filter hr
  obtain ⟨entry, hentry, hbuild⟩ := RuleDocument.exists_entry_of_mem hall hmem
  exact (hdoc entry hentry).build hbuild

/-- **The rules that a command loads ask for indices that fit a word.** -/
theorem positionFits_of_loadRules {env : Environment} {source : RuleSource} {set : RuleSet}
    (h : loadRules env source = .ok set) : ∀ r ∈ set.rules, r.PositionFits := by
  unfold loadRules at h
  split at h
  · cases h
    exact RuleSet.positionFits_openTaxonomy
  · split at h
    · cases h
    · next doc hdoc =>
      split at h
      · cases h
      · next hset =>
        cases h
        exact positionFits_of_rulesOfDocument (positionFits_of_readDocument hdoc) hset

end Cli

end EventTaxonomy
