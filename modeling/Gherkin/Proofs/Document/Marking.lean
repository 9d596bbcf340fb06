import Gherkin.Proofs.Dialect.Keywords

/-! # What a line can be

The mark of a line and the position after it, case by case (`Gherkin.Position.marking`). Everything that is
proved of the lines of a document that was read goes back to these cases.
-/

namespace Gherkin

namespace Place

/-- Whether a place is in a rule. -/
def inRule : Place → Bool
  | .preamble => false
  | .children nested | .steps _ nested | .argument _ nested | .rows _ nested | .doc _ nested _
  | .blocks nested | .examples nested | .exampleRows nested => nested

/-- Whether a place is in a doc string. -/
def isDoc : Place → Bool
  | .doc _ _ _ => true
  | _ => false

/-- Whether examples can stand at a place or after it. -/
def inScenario : Place → Bool
  | .preamble | .children _ => false
  | .steps inScenario _ | .argument inScenario _ | .rows inScenario _ | .doc inScenario _ _ => inScenario
  | .blocks _ | .examples _ | .exampleRows _ => true

/-- Whether a step can stand at a place or after it. -/
def takesSteps : Place → Bool
  | .steps _ _ | .argument _ _ | .rows _ _ | .doc _ _ _ => true
  | _ => false

/-- Whether what can stand at a place could also stand at an earlier one. -/
structure Within (next place : Place) : Prop where
  rule : next.inRule = true → place.inRule = true
  scene : next.inScenario = true → place.inScenario = true
  steps : next.takesSteps = true → place.takesSteps = true
  late : place ≠ .preamble → next ≠ .preamble

theorem Within.refl (place : Place) : place.Within place := ⟨id, id, id, id⟩

theorem within_children {place : Place} {nested : Bool} (rule : nested = true → place.inRule = true) :
    (Place.children nested).Within place := ⟨rule, by rintro ⟨⟩, by rintro ⟨⟩, by rintro _ ⟨⟩⟩

/-- Whether nothing that stands at a place belongs to a step or to examples. -/
def isBare : Place → Bool
  | .preamble | .children _ | .steps _ _ | .blocks _ => true
  | _ => false

/-- Whether a place is right after a step. -/
def isArgument : Place → Bool
  | .argument _ _ => true
  | _ => false

/-- The place after a row of a table. -/
def afterRow? : Place → Option Place
  | .argument inScenario nested | .rows inScenario nested => some (.rows inScenario nested)
  | .examples nested | .exampleRows nested => some (.exampleRows nested)
  | _ => none

end Place

/-- The place after a heading. -/
def Heading.place (nested : Bool) : Heading → Place
  | .feature => .children false
  | .rule => .children true
  | .background _ => .steps false nested
  | .scenario _ _ => .steps true nested
  | .examples => .examples nested

/-- Whether a heading says about its place what is so. -/
def Heading.Fits (nested : Bool) : Heading → Prop
  | .background inRule | .scenario inRule _ => inRule = nested
  | _ => True

/-- The marks that a line can get at a position, with the positions after it. -/
inductive Marking (d : Dialect) : Position → Text → Mark → Position → Prop
  | blank {place : Place} {raw : Text} (outside : place.isDoc = false) (empty : Text.trim raw = []) :
      Marking d ⟨place, false⟩ raw .blank (.within place.afterBlank)
  | gap {place : Place} {raw : Text} (outside : place.isDoc = false) (empty : Text.trim raw = []) :
      Marking d ⟨place, true⟩ raw (.description []) ⟨place, true⟩
  | comment {p : Position} {raw : Text} (outside : p.place.isDoc = false)
      (hash : (Text.trim raw).head? = some '#') : Marking d p raw (.comment (Text.trim raw)) p
  | description {place : Place} {raw : Text} (nonempty : Text.trim raw ≠ [])
      (noComment : (Text.trim raw).head? ≠ some '#') (plain : d.startsElement (Text.trim raw) = false)
      (outside : place.isDoc = false) :
      Marking d ⟨place, true⟩ raw (.description (Text.trim raw)) ⟨place, true⟩
  | docLine {inScenario nested describing : Bool} {fence : Fence} {raw : Text}
      (inside : Text.trim raw ≠ fence.text) :
      Marking d ⟨.doc inScenario nested fence, describing⟩ raw (.docLine raw)
        (.within (.doc inScenario nested fence))
  | closeDoc {inScenario nested describing : Bool} {fence : Fence} {raw : Text}
      (closes : Text.trim raw = fence.text) :
      Marking d ⟨.doc inScenario nested fence, describing⟩ raw .closeDoc (.within (.steps inScenario nested))
  | tags {p : Position} {raw : Text} {tokens : List Text} {place : Place} (bare : place.isBare = true)
      (same : place.inRule = p.place.inRule) (early : p.place = .preamble → place = .preamble)
      (sign : (Text.trim raw).head? = some '@') (within : place.Within p.place) :
      Marking d p raw (.tags tokens) (.within place)
  | heading {p : Position} {raw rest keyword : Text} {kind : Heading} (member : keyword ∈ d.keywords kind)
      (split : Text.trim raw = keyword ++ ':' :: rest) (fits : kind.Fits p.place.inRule)
      (early : kind = .feature ↔ p.place = .preamble)
      (scene : kind = .examples → p.place.inScenario = true) :
      Marking d p raw (.heading kind keyword (Text.trim rest)) (.after (kind.place p.place.inRule))
  | step {p : Position} {raw keyword text : Text} {type : StepType} {inScenario : Bool}
      (found : d.step? (Text.trim raw) = some (keyword, type, text)) (late : p.place ≠ .preamble)
      (within : (Place.argument inScenario p.place.inRule).Within p.place) :
      Marking d p raw (.step keyword type text) (.within (.argument inScenario p.place.inRule))
  | row {place next : Place} {describing : Bool} {raw : Text} (after : place.afterRow? = some next) :
      Marking d ⟨place, describing⟩ raw (.row (splitRow (Text.trim raw))) (.within next)
  | openDoc {inScenario nested describing : Bool} {fence : Fence} {raw : Text} :
      Marking d ⟨.argument inScenario nested, describing⟩ raw (markOpenDoc fence raw)
        (.within (.doc inScenario nested fence))
  | unexpected {describing : Bool} {raw text : Text} :
      Marking d ⟨.preamble, describing⟩ raw (.unexpected text) (.within .preamble)
  | unrecognized {p : Position} {raw text : Text} {nested : Bool} (late : p.place ≠ .preamble)
      (rule : nested = true → p.place.inRule = true) :
      Marking d p raw (.unrecognized text) (.within (.children nested))

variable {d : Dialect}

section Headings

variable {p : Position} {raw : Text}

theorem Marking.of_heading? (kind : Heading) {keyword name : Text}
    (found : heading? (d.keywords kind) (Text.trim raw) = some (keyword, name))
    (fits : kind.Fits p.place.inRule) (early : kind = .feature ↔ p.place = .preamble)
    (scene : kind = .examples → p.place.inScenario = true) :
    Marking d p raw (.heading kind keyword name) (.after (kind.place p.place.inRule)) := by
  obtain ⟨member, rest, split, rfl⟩ := of_heading?_eq_some found
  exact .heading member split fits early scene

/-- A child heading is one of a background or scenario at its place. -/
theorem Marking.of_childHeading? (late : p.place ≠ .preamble) {marked : Mark × Position}
    (found : childHeading? d p.place.inRule (Text.trim raw) = some marked) :
    Marking d p raw marked.1 marked.2 := by
  rw [childHeading?] at found
  split at found
  · rename_i keyword name background
    cases found
    exact .of_heading? (.background p.place.inRule) background rfl (iff_of_false (by rintro ⟨⟩) late) (by rintro ⟨⟩)
  · split at found
    · rename_i keyword name outline
      cases found
      exact .of_heading? (.scenario p.place.inRule true) outline rfl (iff_of_false (by rintro ⟨⟩) late) (by rintro ⟨⟩)
    · obtain ⟨⟨keyword, name⟩, scenario, rfl⟩ := Option.map_eq_some_iff.mp found
      exact .of_heading? (.scenario p.place.inRule false) scenario rfl (iff_of_false (by rintro ⟨⟩) late) (by rintro ⟨⟩)

/-- A line that reads like a feature is no child heading. -/
theorem childHeading?_feature (regular : d.Regular) {keyword rest t : Text} (member : keyword ∈ d.feature)
    (split : t = keyword ++ ':' :: rest) (nested : Bool) : childHeading? d nested t = none := by
  have other (kind : Heading) (apart : Heading.feature.bare ≠ kind.bare) :
      heading? (d.keywords kind) t = none := by
    rw [split]
    exact regular.heading?_other .feature kind apart member rest
  have background : heading? d.background t = none := other (.background false) (by decide)
  have outline : heading? d.outline t = none := other (.scenario false true) (by decide)
  have scenario : heading? d.scenario t = none := other (.scenario false false) (by decide)
  simp only [childHeading?, background, outline, scenario, Option.map_none]

theorem Marking.of_getD (late : p.place ≠ .preamble) (nested : Bool) {found : Option (Mark × Position)}
    (rule : nested = true → p.place.inRule = true) (marked : ∀ m ∈ found, Marking d p raw m.1 m.2) :
    Marking d p raw (found.getD (.unrecognized (Text.trim raw), .within (.children nested))).1
      (found.getD (.unrecognized (Text.trim raw), .within (.children nested))).2 := by
  cases found with
  | none => exact .unrecognized late rule
  | some m => exact marked m rfl

theorem Marking.markInFeature (regular : d.Regular) (late : p.place ≠ .preamble)
    (ends : p.place.inRule = true →
      ((heading? d.rule (Text.trim raw)).isSome || (heading? d.feature (Text.trim raw)).isSome) = true) :
    Marking d p raw (markInFeature d (Text.trim raw)).1 (markInFeature d (Text.trim raw)).2 := by
  rw [Gherkin.markInFeature]
  split
  · rename_i keyword name rule
    exact .of_heading? .rule rule trivial (iff_of_false (by rintro ⟨⟩) late) (by rintro ⟨⟩)
  · rename_i noRule
    apply Marking.of_getD late false (by rintro ⟨⟩)
    intro m found
    cases nested : p.place.inRule with
    | false =>
      rw [← nested] at found
      exact .of_childHeading? late found
    | true =>
      have feature := ends nested
      rw [noRule, Option.isSome_none, Bool.false_or] at feature
      obtain ⟨⟨keyword, name⟩, heading⟩ := Option.isSome_iff_exists.mp feature
      obtain ⟨member, rest, split, _⟩ := of_heading?_eq_some heading
      rw [childHeading?_feature regular member split] at found
      cases found

theorem Marking.markChild (regular : d.Regular) (late : p.place ≠ .preamble) :
    Marking d p raw (markChild d p.place.inRule (Text.trim raw)).1
      (markChild d p.place.inRule (Text.trim raw)).2 := by
  rw [Gherkin.markChild]
  split
  · rename_i sign
    exact .tags rfl rfl (fun same => absurd same late) sign (Place.within_children id)
  · split
    · rename_i inner
      obtain ⟨nested, _⟩ := Bool.and_eq_true_iff.mp inner
      apply Marking.of_getD late true fun _ => nested
      intro m found
      rw [← nested] at found
      exact .of_childHeading? late found
    · rename_i outer
      apply Marking.markInFeature regular late
      intro nested
      rw [nested, Bool.true_and, Bool.not_eq_true] at outer
      rwa [Bool.not_eq_false'] at outer

theorem Marking.markBlock (regular : d.Regular) (late : p.place ≠ .preamble)
    (scene : p.place.inScenario = true) (ahead : List Text) :
    Marking d p raw (markBlock d p.place.inRule (Text.trim raw) ahead).1
      (markBlock d p.place.inRule (Text.trim raw) ahead).2 := by
  rw [Gherkin.markBlock]
  split
  · rename_i keyword name examples
    exact .of_heading? .examples examples trivial (iff_of_false (by rintro ⟨⟩) late) fun _ => scene
  · split
    · rename_i above
      obtain ⟨sign, _⟩ := Bool.and_eq_true_iff.mp above
      refine .tags rfl rfl (fun same => absurd same late) (by simpa using sign) ?_
      exact ⟨id, fun _ => scene, by rintro ⟨⟩, by rintro _ ⟨⟩⟩
    · exact .markChild regular late

theorem Marking.markStep (regular : d.Regular) (takes : p.place.takesSteps = true) {inScenario : Bool}
    (scene : p.place.inScenario = inScenario) (ahead : List Text) :
    Marking d p raw (markStep d inScenario p.place.inRule (Text.trim raw) ahead).1
      (markStep d inScenario p.place.inRule (Text.trim raw) ahead).2 := by
  have late : p.place ≠ .preamble := by
    intro same
    rw [same] at takes
    cases takes
  rw [Gherkin.markStep]
  split
  · rename_i keyword type text found
    exact .step found late ⟨id, scene.trans, fun _ => takes, by rintro _ ⟨⟩⟩
  · split
    · rename_i inside
      exact .markBlock regular late (scene.trans inside) ahead
    · exact .markChild regular late

end Headings

/-- A line that is neither blank nor a comment, outside doc strings and descriptions. -/
theorem Place.marking (regular : d.Regular) {place : Place} (outside : place.isDoc = false)
    (describing : Bool) (raw : Text) (ahead : List Text) :
    Marking d ⟨place, describing⟩ raw (place.mark d (Text.trim raw) raw ahead).1
      (place.mark d (Text.trim raw) raw ahead).2 := by
  cases place with
  | preamble =>
    rw [Place.mark]
    split
    · rename_i sign
      exact .tags rfl rfl id sign (.refl _)
    · split
      · rename_i keyword name feature
        exact .of_heading? .feature feature trivial (iff_of_true rfl rfl) (by rintro ⟨⟩)
      · exact .unexpected
  | children nested => exact .markChild regular (by rintro ⟨⟩)
  | steps inScenario nested => exact .markStep regular rfl rfl ahead
  | argument inScenario nested =>
    rw [Place.mark]
    split
    · exact .row rfl
    · split
      · exact .openDoc
      · exact .markStep regular rfl rfl ahead
  | rows inScenario nested =>
    rw [Place.mark]
    split
    · exact .row rfl
    · exact .markStep regular rfl rfl ahead
  | doc inScenario nested fence => cases outside
  | blocks nested => exact .markBlock regular (by rintro ⟨⟩) rfl ahead
  | examples nested | exampleRows nested =>
    rw [Place.mark]
    split
    · exact .row rfl
    · exact .markBlock regular (by rintro ⟨⟩) rfl ahead

/-- Every line is marked in one of these ways. -/
theorem Position.marking (regular : d.Regular) (p : Position) (raw : Text) (ahead : List Text) :
    Marking d p raw (p.mark d raw ahead).1 (p.mark d raw ahead).2 := by
  unfold Position.mark
  split
  · split
    · rename_i closes
      exact .closeDoc closes
    · rename_i inside
      exact .docLine inside
  · rename_i place describing elsewhere
    have outside : place.isDoc = false := by
      cases place with
      | doc inScenario nested fence => exact (elsewhere inScenario nested fence rfl).elim
      | _ => rfl
    split
    · rename_i empty
      cases describing with
      | true => exact .gap outside empty
      | false => exact .blank outside empty
    · rename_i c t line
      split
      · rename_i hash
        rw [← line]
        exact .comment outside (by rw [line, hash]; rfl)
      · rename_i noComment
        split
        · rename_i described
          obtain ⟨rfl, plain⟩ := Bool.and_eq_true_iff.mp described
          rw [← line] at plain ⊢
          refine .description (by rw [line]; exact List.cons_ne_nil _ _) ?_ (by simpa using plain) outside
          rw [line]
          exact fun same => noComment (Option.some.inj same)
        · rw [← line]
          exact Place.marking regular outside describing raw ahead

/-! ### Lines of descriptions -/

section Descriptions

variable {p : Position} {raw : Text}

/-- Whether a line goes on with a description: it is empty, a comment, or starts nothing else. -/
def Dialect.Continues (d : Dialect) (line : Text) : Prop :=
  Text.trim line = [] ∨ (Text.trim line).head? = some '#' ∨ d.startsElement (Text.trim line) = false

/-- Whether a description can go on at a position. -/
def Position.Describing (p : Position) : Prop := p.describing = true ∧ p.place.isDoc = false

theorem Position.mark_comment (outside : p.place.isDoc = false) (hash : (Text.trim raw).head? = some '#')
    (ahead : List Text) : p.mark d raw ahead = (.comment (Text.trim raw), p) := by
  obtain ⟨place, describing⟩ := p
  cases line : Text.trim raw with
  | nil =>
    rw [line] at hash
    cases hash
  | cons c rest =>
    rw [line] at hash
    cases hash
    cases place with
    | doc => cases outside
    | _ => simp [Position.mark, line]

/-- While a description goes on, lines are comments or belong to it. -/
theorem Position.mark_continues (describing : p.Describing) (goesOn : d.Continues raw) (ahead : List Text) :
    p.mark d raw ahead =
      (if (Text.trim raw).head? = some '#' then .comment (Text.trim raw) else .description (Text.trim raw),
        p) := by
  by_cases hash : (Text.trim raw).head? = some '#'
  · rw [if_pos hash, mark_comment describing.2 hash]
  · rw [if_neg hash]
    obtain ⟨place, describing⟩ := p
    obtain ⟨rfl, outside⟩ := describing
    cases line : Text.trim raw with
    | nil =>
      cases place with
      | doc => cases outside
      | _ => simp [Position.mark, line]
    | cons c rest =>
      have other : c ≠ '#' := by
        rintro rfl
        rw [line] at hash
        exact hash rfl
      have plain : d.startsElement (c :: rest) = false := by
        simpa [Dialect.Continues, line, other] using goesOn
      cases place with
      | doc => cases outside
      | _ => simp [Position.mark, line, other, plain]

end Descriptions

end Gherkin
