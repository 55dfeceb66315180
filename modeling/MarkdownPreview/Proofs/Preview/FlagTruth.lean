import MarkdownPreview.Proofs.Markup.PassThrough
import MarkdownPreview.Proofs.Preview.Outcome
import MarkdownPreview.Template

/-!
# Values of a tag and their truth

A tag may be given any value for a feature, and is meant to go by its truth. What is run for it
does. The preview pass, however, takes numbers and texts for what they say but cannot be run with an
array or an object, whatever that would say; its failure is reported, and the document is only
wrapped. Nobody sees that as long as the pass would have copied all of the document.

* `tag_byTruth`: with the truth of its values, a tag renders its text under the features they name.
* `unenhanced_of_plan`: what a rendering comes to without the pass.
* `Unenhanced.html_eq_iff`: when nobody sees that.
* `counts_by_truth`: when a tag shows the same as with the truth of its values.
-/
namespace MarkdownPreview.Template

open Json (Value)
open Markup
open Text (Phrase)

/-! ## Values by their truth -/

/-- What is left of a value of which only the truth counts. Null still says nothing. -/
def truthOf : Value → Value
  | .null => .null
  | v => .bool v.truthy

theorem saidBy_truthOf (v : Value) : saidBy (truthOf v) = saidBy v := by
  cases v <;> rfl

theorem isCompound_truthOf (v : Value) : (truthOf v).isCompound = false := by
  cases v <;> rfl

namespace FlagValues

def byTruth (a : FlagValues) : FlagValues :=
  ⟨truthOf a.taskLists, truthOf a.iconBullets⟩

/-- Whether one of the values is an array or an object. -/
def hasCompound (a : FlagValues) : Bool :=
  a.taskLists.isCompound || a.iconBullets.isCompound

theorem overrides_byTruth (a : FlagValues) : a.byTruth.overrides = a.overrides := by
  simp only [overrides, byTruth, saidBy_truthOf]

theorem hasCompound_byTruth (a : FlagValues) : a.byTruth.hasCompound = false := by
  simp only [hasCompound, byTruth, isCompound_truthOf, Bool.or_self]

/-- Other values than arrays and objects say by their truth all that they say. -/
theorem setup_of_simple {a : FlagValues} (h : a.hasCompound = false) (base : Settings) :
    a.setup base = .of (base.withFeatures a.overrides) := by
  unfold hasCompound at h
  simp [setup, Setup.of, FeatureEntry.ofValues, h]

theorem setup_of_compound {a : FlagValues} (h : a.hasCompound = true) (base : Settings) :
    a.setup base = ⟨base.withFeatures a.overrides, .unusable⟩ := by
  unfold hasCompound at h
  simp only [setup, FeatureEntry.ofValues, h, if_true]

end FlagValues

section
variable {options : Option Value} {base : Settings} {a : FlagValues}

theorem tag_of_simple (hbase : Settings.ofOptions options = .ok base) (h : a.hasCompound = false)
    (c : Converter) (text : String) :
    tag options c (.text text) a = render (base.withFeatures a.overrides) c text := by
  rw [tag, hbase]
  dsimp only
  rw [FlagValues.setup_of_simple h]
  rfl

theorem tag_byTruth (hbase : Settings.ofOptions options = .ok base) (a : FlagValues)
    (c : Converter) (text : String) :
    tag options c (.text text) a.byTruth = render (base.withFeatures a.overrides) c text := by
  rw [tag_of_simple hbase a.hasCompound_byTruth, a.overrides_byTruth]

theorem tag_of_compound (hbase : Settings.ofOptions options = .ok base)
    (h : a.hasCompound = true) (c : Converter) (text : String) :
    tag options c (.text text) a =
      renderWith ⟨base.withFeatures a.overrides, .unusable⟩ c text := by
  rw [tag, hbase]
  dsimp only
  rw [FlagValues.setup_of_compound h]
  rfl

end

/-! ## A rendering without the pass -/

/-- What a rendering `r` becomes when the pass cannot be run: the output is only wrapped, and the
fault of a failed conversion is shown as ever. -/
structure Unenhanced (c : Converter) (r r' : Rendering) : Prop where
  runs : r'.runs = r.runs
  reported : r'.log = r.log ++ [passFailed]
  wrapped : ∀ output report, c = .finished output report 0 →
    r'.preview.html = wrapBody output ∧ r'.preview.error = none
  failed : (∀ output report, c ≠ .finished output report 0) → r'.preview = r.preview

section
variable {s : Settings} {plan : Plan} (hp : Plan.of? s = some plan) {c : Converter} {text : String}

include hp

/-- The pass does not matter to the rest of a rendering. -/
theorem unenhanced_of_plan (ha : c.Answers text) : ∃ r r', render s c text = .ok r ∧
    renderWith ⟨s, .unusable⟩ c text = .ok r' ∧ Unenhanced c r r' := by
  by_cases hc : ∃ output report, c = .finished output report 0
  · obtain ⟨output, report, rfl⟩ := hc
    have hout : (convert plan (.finished output report 0) text).2 = .converted output :=
      (convert_converted_iff ..).2 ⟨⟨text, rfl⟩, report, rfl⟩
    refine ⟨_, _, render_of_converted hp none hout,
      renderWith_of_conclude (u := ⟨s, .unusable⟩) hp (by rw [hout]; rfl), ?_⟩
    exact
      { runs := rfl
        reported := rfl
        wrapped := by
          intro output' report' he
          cases he
          exact ⟨rfl, rfl⟩
        failed := fun hc => absurd rfl (hc output report) }
  · have hc' : ∀ output report, c ≠ .finished output report 0 :=
      fun output report he => hc ⟨output, report, he⟩
    obtain ⟨e, he, -⟩ := convert_fails ha hc' plan
    refine ⟨_, _, render_of_failed hp none he,
      renderWith_of_conclude (u := ⟨s, .unusable⟩) hp (by rw [he]; rfl), ?_⟩
    exact
      { runs := rfl
        reported := rfl
        wrapped := fun output report hf => absurd hf (hc' output report)
        failed := fun _ => rfl }

/-- Neither does it matter to a run that is given up. -/
theorem render_eq_of_no_answer (ha : ¬c.Answers text) :
    ∃ e, render s c text = .error e ∧ renderWith ⟨s, .unusable⟩ c text = .error e := by
  obtain ⟨why, hconvert⟩ := convert_aborted ha plan
  have haborted : (convert plan c text).2 = .aborted why := by rw [hconvert]
  exact ⟨_, renderWith_of_aborted (u := .of s) hp haborted,
    renderWith_of_aborted (u := ⟨s, .unusable⟩) hp haborted⟩

end

/-! ## What a template shows -/

/-- What a template shows of a rendering. -/
def shown (y : Except Fault Rendering) : Except Fault String :=
  y.map fun r => r.preview.html

/-- The pass under `f` replaces no token of the document. -/
def CopiesAll (f : Features) (html : String) : Prop :=
  ∀ i t, (scan f html)[i]? = some t → (stateBefore f html i).replacement? f t.kind = none

/-- Nobody sees that the pass was not run if it would have copied the output. -/
theorem Unenhanced.html_eq_iff {s : Settings} {c : Converter} {text : Phrase} {r r' : Rendering}
    (h : Unenhanced c r r') (hr : Concludes s c text none r) :
    r'.preview.html = r.preview.html ↔
      ∀ output report, c = .finished output report 0 → CopiesAll s.features output := by
  by_cases hc : ∃ output report, c = .finished output report 0
  · obtain ⟨output, report, rfl⟩ := hc
    rw [(h.wrapped output report rfl).1, (hr.converted output report rfl).1, eq_comm,
      only_wrapped_iff_copied]
    constructor
    · intro hcopies output' report' he
      cases he
      exact hcopies
    · exact fun hcopies => hcopies output report rfl
  · have hc' : ∀ output report, c ≠ .finished output report 0 :=
      fun output report he => hc ⟨output, report, he⟩
    rw [h.failed hc']
    exact ⟨fun _ output report he => absurd he (hc' output report), fun _ => rfl⟩

/-- How a tag with some values goes by their truth, under the settings `base`. -/
structure CountsByTruth (options : Option Value) (base : Settings) (c : Converter) (text : String)
    (a : FlagValues) : Prop where
  /-- With the truth of its values, a tag renders its text under the features that they name. -/
  byTruth : tag options c (.text text) a.byTruth = render (base.withFeatures a.overrides) c text
  simple : a.hasCompound = false →
    tag options c (.text text) a = tag options c (.text text) a.byTruth
  /-- With an array or an object nothing is enhanced, unless both tags fail. -/
  compound : a.hasCompound = true →
    (∃ e, tag options c (.text text) a.byTruth = .error e ∧
      tag options c (.text text) a = .error e) ∨
    ∃ r r', tag options c (.text text) a.byTruth = .ok r ∧
      tag options c (.text text) a = .ok r' ∧ Unenhanced c r r'
  shown_iff : shown (tag options c (.text text) a) = shown (tag options c (.text text) a.byTruth) ↔
    (a.hasCompound = true → ∀ plan output report, Plan.of? base = some plan →
      c = .finished output report 0 → CopiesAll (base.withFeatures a.overrides).features output)

theorem countsByTruth_of_simple {options : Option Value} {base : Settings}
    (hbase : Settings.ofOptions options = .ok base) {a : FlagValues} (ha : a.hasCompound = false)
    (c : Converter) (text : String) : CountsByTruth options base c text a := by
  have hbyTruth := tag_byTruth hbase a c text
  have htag : tag options c (.text text) a = tag options c (.text text) a.byTruth := by
    rw [hbyTruth, tag_of_simple hbase ha]
  exact
    { byTruth := hbyTruth
      simple := fun _ => htag
      compound := fun h => absurd (ha.symm.trans h) Bool.false_ne_true
      shown_iff := ⟨fun _ h => absurd (ha.symm.trans h) Bool.false_ne_true,
        fun _ => congrArg shown htag⟩ }

theorem countsByTruth_of_compound {options : Option Value} {base : Settings}
    (hbase : Settings.ofOptions options = .ok base) {a : FlagValues} (ha : a.hasCompound = true)
    (c : Converter) (text : String) : CountsByTruth options base c text a := by
  have hbyTruth := tag_byTruth hbase a c text
  have htag := tag_of_compound hbase ha c text
  have hsimple : a.hasCompound = false →
      tag options c (.text text) a = tag options c (.text text) a.byTruth :=
    fun h => absurd (h.symm.trans ha) Bool.false_ne_true
  have hsame := plan_withFeatures base a.overrides
  -- a tag that is refused or given up is so under either setup
  have hfails {e : Fault}
      (hr : render (base.withFeatures a.overrides) c text = .error e)
      (hr' : renderWith ⟨base.withFeatures a.overrides, .unusable⟩ c text = .error e)
      (hno : ∀ plan output report, Plan.of? base = some plan → c ≠ .finished output report 0) :
      CountsByTruth options base c text a :=
    { byTruth := hbyTruth
      simple := hsimple
      compound := fun _ => .inl ⟨e, hbyTruth.trans hr, htag.trans hr'⟩
      shown_iff := by
        rw [hbyTruth, hr, htag, hr']
        exact iff_of_true rfl fun _ plan output report hp hc =>
          absurd hc (hno plan output report hp) }
  cases hplan : Plan.of? base with
  | none =>
    have hnone := hsame.trans hplan
    exact hfails (renderWith_of_no_plan (u := .of (base.withFeatures a.overrides)) hnone c text none)
      (renderWith_of_no_plan (u := ⟨base.withFeatures a.overrides, .unusable⟩) hnone c text none)
      fun plan output report hp => by cases hplan.symm.trans hp
  | some plan =>
    have hsome := hsame.trans hplan
    by_cases ha' : c.Answers text
    · obtain ⟨r, r', hr, hr', hskip⟩ := unenhanced_of_plan hsome ha'
      obtain ⟨y, hy, hcon⟩ := concludes_of_plan hsome ha' none
      obtain rfl := Except.ok.inj (hr.symm.trans hy)
      exact
        { byTruth := hbyTruth
          simple := hsimple
          compound := fun _ => .inr ⟨r, r', hbyTruth.trans hr, htag.trans hr', hskip⟩
          shown_iff := by
            rw [hbyTruth, hr, htag, hr', hplan]
            refine Iff.trans ⟨Except.ok.inj, congrArg Except.ok⟩ ((hskip.html_eq_iff hcon).trans ?_)
            exact ⟨fun h _ _ output report _ => h output report,
              fun h output report => h ha plan output report rfl⟩ }
    · obtain ⟨e, hr, hr'⟩ := render_eq_of_no_answer hsome ha'
      refine hfails hr hr' fun _ output report _ hc => ha' ?_
      rw [hc]
      exact answers_of_finished text

/-- A tag shows the same as with the truth of its values, unless one of them is an array or an
object and there is something to enhance. -/
theorem counts_by_truth {options : Option Value} {base : Settings}
    (hbase : Settings.ofOptions options = .ok base) (c : Converter) (text : String)
    (a : FlagValues) : CountsByTruth options base c text a := by
  cases ha : a.hasCompound with
  | false => exact countsByTruth_of_simple hbase ha c text
  | true => exact countsByTruth_of_compound hbase ha c text

/-- An array, which counts as true. -/
def arrayFlag : FlagValues :=
  ⟨.array [.text "on"], .null⟩

theorem counts_by_truth_array :
    CountsByTruth none {} (.finished "<hr />" none 0) "x" arrayFlag :=
  counts_by_truth Settings.ofOptions_none (.finished "<hr />" none 0) "x" arrayFlag

/-- The rule in the output is shown as the converter left it. -/
theorem not_shown_byTruth :
    shown (tag none (.finished "<hr />" none 0) (.text "x") arrayFlag) = .ok (wrapBody "<hr />") ∧
    shown (tag none (.finished "<hr />" none 0) (.text "x") arrayFlag.byTruth) =
      .ok (wrapBody ruleBox) ∧
    shown (tag none (.finished "<hr />" none 0) (.text "x") arrayFlag) ≠
      shown (tag none (.finished "<hr />" none 0) (.text "x") arrayFlag.byTruth) := by
  have harray : shown (tag none (.finished "<hr />" none 0) (.text "x") arrayFlag) =
      .ok (wrapBody "<hr />") := by
    decide +kernel
  have htruth : shown (tag none (.finished "<hr />" none 0) (.text "x") arrayFlag.byTruth) =
      .ok (wrapBody ruleBox) := by
    decide +kernel
  refine ⟨harray, htruth, ?_⟩
  rw [harray, htruth]
  intro h
  have hdiffer : "<hr />" ≠ ruleBox := by decide
  exact hdiffer (wrapBody_injective (Except.ok.inj h))

end MarkdownPreview.Template
