import Mathlib.Data.List.Forall2
import MarkdownPreview.Proofs.Preview.Outcome

/-!
# Previews when conversions fail

A conversion that fails leaves the last good preview in place, with its own message attached. Before
there is one, the message is shown alone, as text that neither starts nor ends a tag.

A session gives each step the last good preview. Giving it instead whatever was shown last, good or
not (`feedBack`), makes a difference only before the first good preview: a preview that was kept
after a failure has the HTML of the good one, and a rendering looks at nothing else of it. A step
whose run is given up without an answer ends the session.

* `failure_shows_message`: what is shown of a message when there is no preview to keep.
* `SessionStep.Ready.cases`, `SessionStep.Ready.aborted`: what one step can come to, whatever preview
  it is given.
* `renderInTurn_congr`: previews that differ in their message alone are followed by the same ones.
* `last_good_survives`: what every step of a session shows.
-/
namespace MarkdownPreview

open Json (Value)
open Markup
open Text (Phrase)

/-! ## The message alone -/

/-- A failed conversion with no preview to keep shows its message in a paragraph. The message is
escaped there: it holds no angle bracket, the preview pass leaves it as it is whatever it looks for,
and it can be read back. -/
theorem failure_shows_message {s : Settings} {plan : Plan} (hp : Plan.of? s = some plan)
    {c : Converter} {text : Phrase} {e : ConversionError}
    (he : (convert plan c text).2 = .failed e) :
    ∃ r, render s c text none = .ok r ∧ r.preview.error = some e.message ∧
      r.preview.html = bodyOpen ++
        ("<p class=\"preview-error\">" ++ Text.escaped e.message ++ "</p>") ++ bodyClose ∧
      r.preview.rawHtml = "<p class=\"preview-error\">" ++ Text.escaped e.message ++ "</p>" ∧
      (∀ f, transform f r.preview.rawHtml = r.preview.html) ∧
      '<' ∉ (Text.escaped e.message).toList ∧ '>' ∉ (Text.escaped e.message).toList ∧
      Text.unescape (Text.escaped e.message).toList = e.message.toList := by
  refine ⟨_, render_of_failed hp none he, ?_⟩
  have hescaped : (Text.escaped e.message).toList = Text.escape e.message.toList :=
    String.toList_ofList
  obtain ⟨hless, hgreater⟩ := Text.no_angle_escape e.message.toList
  rw [hescaped]
  exact ⟨rfl, rfl, rfl, fun f => transform_errorParagraph f e.message, hless, hgreater,
    Text.unescape_escape e.message.toList⟩

/-- A message that spells tags, of a converter that cannot be started. -/
theorem failure_shows_message_tags :
    ∃ r, render {} (.notStarted "</p><li>[x]") "" none = .ok r ∧
      r.preview.rawHtml =
        "<p class=\"preview-error\">Could not run pandoc: &lt;/p&gt;&lt;li&gt;[x]</p>" ∧
      ∀ f, transform f r.preview.rawHtml = r.preview.html := by
  obtain ⟨plan, hp⟩ : ∃ plan, Plan.of? {} = some plan :=
    Option.isSome_iff_exists.1 ((plan_isSome_iff {}).2 fun i hi => by cases hi; decide +kernel)
  have he : (convert plan (.notStarted "</p><li>[x]") "").2 =
      .failed (.notStarted "</p><li>[x]") := rfl
  obtain ⟨r, hr, -, -, hraw, hpass, -⟩ := failure_shows_message hp he
  exact ⟨r, hr, hraw.trans (by decide +kernel), hpass⟩

/-! ## Steps of a session -/

namespace SessionStep

/-- Renders the text of a step after some preview. -/
def render (step : SessionStep) (previous : Option Preview) : Except Fault Rendering :=
  match setupFrom step.given step.options with
  | .error e => .error e
  | .ok u => renderWith u step.converter step.text previous

/-- A step with settings that a site can have and a time limit that is a number of the format. -/
structure Ready (step : SessionStep) (s : Settings) : Prop where
  setup : setupFrom step.given step.options = .ok (.of s)
  accepted : ∃ options, Settings.ofOptions options = .ok s
  limit : ∀ limit : Int, s.parsingTimeout = .whole limit → limit < 2 ^ 1024 - 2 ^ 970

/-- A step that has an answer. -/
def Answered (step : SessionStep) : Prop :=
  step.converter.Answers step.text

/-- The message of a step whose conversion fails. -/
def FailsWith (step : SessionStep) (message : String) : Prop :=
  ∃ s plan e, step.Ready s ∧ Plan.of? s = some plan ∧
    (convert plan step.converter step.text).2 = .failed e ∧ message = e.message

/-- What a rendering says about its own step. -/
structure Reports (step : SessionStep) (r : Rendering) : Prop where
  error_iff : r.preview.error = none ↔ ∃ output report, step.converter = .finished output report 0
  message : ∀ message, r.preview.error = some message → step.FailsWith message

theorem Ready.render_eq {step : SessionStep} {s : Settings} (h : step.Ready s)
    (previous : Option Preview) :
    step.render previous = MarkdownPreview.render s step.converter step.text previous := by
  rw [render, h.setup]
  rfl

theorem Ready.exists_plan {step : SessionStep} {s : Settings} (h : step.Ready s) :
    ∃ plan, Plan.of? s = some plan := by
  obtain ⟨options, hs⟩ := h.accepted
  exact MarkdownPreview.exists_plan (Settings.accepted_ofOptions hs) h.limit

/-- A step with an answer either shows the same whatever preview it is given, or fails with a message
of its own, which is all that it adds to that preview. -/
theorem Ready.cases {step : SessionStep} {s : Settings} (h : step.Ready s) (ha : step.Answered) :
    (∃ r, r.preview.ok = true ∧ step.Reports r ∧ ∀ previous, step.render previous = .ok r) ∨
    ∃ message runs log, (∀ previous, step.Reports ⟨shownAfterFailure message previous, runs, log⟩) ∧
      ∀ previous, step.render previous = .ok ⟨shownAfterFailure message previous, runs, log⟩ := by
  obtain ⟨plan, hp⟩ := h.exists_plan
  by_cases hc : ∃ output report, step.converter = .finished output report 0
  · have hplain : ∃ t, step.text = .plain t := by
      obtain ⟨output, report, hf⟩ := hc
      rwa [Answered, hf] at ha
    have hc' := hc
    obtain ⟨output, report, hf⟩ := hc
    have hout : (convert plan step.converter step.text).2 = .converted output :=
      (convert_converted_iff ..).2 ⟨hplain, report, hf⟩
    refine .inl ⟨_, ?_, ⟨iff_of_true ?_ hc', ?_⟩, fun previous =>
      (h.render_eq previous).trans (render_of_converted hp previous hout)⟩
    · rfl
    · rfl
    · nofun
  · obtain ⟨e, he, -⟩ := convert_fails ha (fun output report hf => hc ⟨output, report, hf⟩) plan
    have herror : ∀ previous, (shownAfterFailure e.message previous).error = some e.message := by
      intro previous
      cases previous <;> rfl
    refine .inr ⟨e.message, (convert plan step.converter step.text).1, [failureRecord e],
      fun previous => ⟨?_, ?_⟩, fun previous => ?_⟩
    · rw [herror]
      exact iff_of_false nofun hc
    · intro message hm
      rw [herror, Option.some.injEq] at hm
      exact ⟨s, plan, e, h, hp, he, hm.symm⟩
    · exact (h.render_eq previous).trans (render_of_failed hp previous he)

/-- A step without an answer is given up, whatever preview it is given. -/
theorem Ready.aborted {step : SessionStep} {s : Settings} (h : step.Ready s)
    (ha : ¬step.Answered) :
    ∃ run why, ∀ previous, step.render previous = .error (.aborted run why) := by
  obtain ⟨plan, hp⟩ := h.exists_plan
  obtain ⟨why, hconvert⟩ := convert_aborted ha plan
  refine ⟨plan.invocation step.text, why, fun previous => ?_⟩
  exact (h.render_eq previous).trans (renderWith_of_aborted (u := .of s) hp (by rw [hconvert]))

end SessionStep

/-! ## Rendering in turn -/

/-- Renders texts in turn. From the preview that a step is given and the one that it makes, `next`
chooses the preview that the following step is given. -/
def renderInTurn (next : Option Preview → Preview → Option Preview) :
    Option Preview → List SessionStep → Except Fault (List Rendering)
  | _, [] => .ok []
  | previous, step :: rest =>
    match step.render previous with
    | .error e => .error e
    | .ok r =>
      match renderInTurn next (next previous r.preview) rest with
      | .error e => .error e
      | .ok rs => .ok (r :: rs)

/-- The following step is given the last good preview. -/
def keepGood (previous : Option Preview) (p : Preview) : Option Preview :=
  if p.ok then some p else previous

/-- The following step is given the preview made last, good or not. -/
def feedBack (_ : Option Preview) (p : Preview) : Option Preview :=
  some p

theorem renderSession_eq (last : Option Preview) (steps : List SessionStep) :
    renderSession last steps = renderInTurn keepGood last steps := by
  induction steps generalizing last with
  | nil => rfl
  | cons step rest ih =>
    rw [renderSession, renderInTurn, SessionStep.render]
    cases setupFrom step.given step.options with
    | error e => rfl
    | ok u =>
      cases hr : renderWith u step.converter step.text last with
      | error e => simp only [hr]
      | ok r =>
        simp only [hr, ih]
        rfl

theorem renderInTurn_cons {next : Option Preview → Preview → Option Preview}
    {previous : Option Preview} {step : SessionStep} {rest : List SessionStep} {r : Rendering}
    {rs : List Rendering} (hr : step.render previous = .ok r)
    (hrs : renderInTurn next (next previous r.preview) rest = .ok rs) :
    renderInTurn next previous (step :: rest) = .ok (r :: rs) := by
  rw [renderInTurn, hr]
  simp only [hrs]

/-! ## The last good preview -/

/-- The last good preview among some renderings. -/
def lastGood (rs : List Rendering) : Option Preview :=
  ((rs.map Rendering.preview).filter Preview.ok).getLast?

theorem lastGood_cons_or (r : Rendering) (rs : List Rendering) (last : Option Preview) :
    (lastGood (r :: rs)).or last = (lastGood rs).or (keepGood last r.preview) := by
  unfold lastGood keepGood
  cases hr : r.preview.ok with
  | false => simp [hr]
  | true =>
    rw [List.map_cons, List.filter_cons_of_pos hr, List.getLast?_cons]
    cases ((rs.map Rendering.preview).filter Preview.ok).getLast? <;> rfl

/-- Every step reports on itself, and each that fails shows the last good preview before it. -/
theorem renderInTurn_keepGood {steps : List SessionStep}
    (h : ∀ step ∈ steps, (∃ s, step.Ready s) ∧ step.Answered) (last : Option Preview) :
    ∃ rs, renderInTurn keepGood last steps = .ok rs ∧
      List.Forall₂ SessionStep.Reports steps rs ∧
      ∀ before r after message, rs = before ++ r :: after → r.preview.error = some message →
        r.preview = shownAfterFailure message ((lastGood before).or last) := by
  induction steps generalizing last with
  | nil => exact ⟨[], rfl, .nil, fun before r after _ he => by simp at he⟩
  | cons step rest ih =>
    rw [List.forall_mem_cons] at h
    obtain ⟨⟨⟨s, hs⟩, ha⟩, hrest⟩ := h
    have hstep : ∃ r, step.render last = .ok r ∧ step.Reports r ∧
        ∀ message, r.preview.error = some message →
          r.preview = shownAfterFailure message last := by
      obtain ⟨r, hok, hreports, hr⟩ | ⟨message, runs, log, hreports, hr⟩ := hs.cases ha
      · refine ⟨r, hr last, hreports, fun message he => ?_⟩
        rw [Preview.ok, he] at hok
        cases hok
      · refine ⟨_, hr last, hreports last, fun message' he => ?_⟩
        cases last <;> cases he <;> rfl
    obtain ⟨r, hr, hreports, hshown⟩ := hstep
    obtain ⟨rs, hrs, hall, hkept⟩ := ih hrest (keepGood last r.preview)
    refine ⟨r :: rs, renderInTurn_cons hr hrs, .cons hreports hall, ?_⟩
    intro before r' after message he hm
    cases before with
    | nil =>
      cases he
      exact hshown message hm
    | cons b before =>
      rw [List.cons_append, List.cons.injEq] at he
      obtain ⟨rfl, he⟩ := he
      rw [lastGood_cons_or]
      exact hkept before r' after message he hm

/-! ## Feeding every preview back -/

/-- Previews that differ in their message at most. -/
structure SameHtml (p p' : Preview) : Prop where
  html : p.html = p'.html
  rawHtml : p.rawHtml = p'.rawHtml

theorem shownAfterFailure_congr {p p' : Preview} (h : SameHtml p p') (message : String) :
    shownAfterFailure message (some p) = shownAfterFailure message (some p') := by
  simp only [shownAfterFailure, h.html, h.rawHtml]

/-- After previews that differ in their message at most, a session goes on in the same way whether
failed previews are fed back or not. -/
theorem renderInTurn_congr {steps : List SessionStep}
    (h : ∀ step ∈ steps, (∃ s, step.Ready s) ∧ step.Answered) {p p' : Preview}
    (hp : SameHtml p p') :
    renderInTurn keepGood (some p) steps = renderInTurn feedBack (some p') steps := by
  induction steps generalizing p p' with
  | nil => rfl
  | cons step rest ih =>
    rw [List.forall_mem_cons] at h
    obtain ⟨⟨⟨s, hs⟩, ha⟩, hrest⟩ := h
    obtain ⟨r, hok, -, hr⟩ | ⟨message, runs, log, -, hr⟩ := hs.cases ha
    · have hnext : keepGood (some p) r.preview = some r.preview := if_pos hok
      rw [renderInTurn, renderInTurn, hr, hr]
      simp only [hnext, feedBack, ih hrest ⟨rfl, rfl⟩]
    · have hnext : keepGood (some p) (shownAfterFailure message (some p')) = some p := rfl
      have hsame : SameHtml p (shownAfterFailure message (some p')) := ⟨hp.html, hp.rawHtml⟩
      rw [renderInTurn, renderInTurn, hr, hr, shownAfterFailure_congr hp]
      simp only [hnext, feedBack, ih hrest hsame]

/-- From the first good preview on, a session that feeds every preview back makes the same
renderings, whatever either of the two starts with. -/
theorem renderInTurn_feedBack {steps : List SessionStep}
    (h : ∀ step ∈ steps, (∃ s, step.Ready s) ∧ step.Answered) (last start : Option Preview) :
    ∃ rs rs', renderInTurn keepGood last steps = .ok rs ∧
      renderInTurn feedBack start steps = .ok rs' ∧
      ∀ before r after, rs = before ++ r :: after → r.preview.ok = true →
        ∃ before', before'.length = before.length ∧ rs' = before' ++ r :: after := by
  induction steps generalizing last start with
  | nil => exact ⟨[], [], rfl, rfl, fun before r after he => by simp at he⟩
  | cons step rest ih =>
    rw [List.forall_mem_cons] at h
    obtain ⟨⟨⟨s, hs⟩, ha⟩, hrest⟩ := h
    obtain ⟨r, hok, -, hr⟩ | ⟨message, runs, log, -, hr⟩ := hs.cases ha
    · -- both go on from the same good preview
      have hnext : keepGood last r.preview = some r.preview := if_pos hok
      obtain ⟨rs, hrs, -⟩ := renderInTurn_keepGood hrest (some r.preview)
      have hrs' : renderInTurn feedBack (some r.preview) rest = .ok rs := by
        rw [← renderInTurn_congr hrest ⟨rfl, rfl⟩, hrs]
      exact ⟨r :: rs, r :: rs, renderInTurn_cons (hr last) (by rw [hnext, hrs]),
        renderInTurn_cons (hr start) hrs', fun before r after he _ => ⟨before, rfl, he⟩⟩
    · obtain ⟨rs, rs', hrs, hrs', hsame⟩ := ih hrest (keepGood last (shownAfterFailure message last))
        (some (shownAfterFailure message start))
      refine ⟨_, _, renderInTurn_cons (hr last) hrs, renderInTurn_cons (hr start) hrs', ?_⟩
      intro before r after he hok
      cases before with
      | nil =>
        cases he
        cases last <;> cases hok
      | cons b before =>
        obtain ⟨before', hlength, he'⟩ := hsame before r after (List.cons.inj he).2 hok
        exact ⟨_ :: before', congrArg (· + 1) hlength, congrArg _ he'⟩

/-! ## Sessions -/

theorem renderInTurn_append_error {next : Option Preview → Preview → Option Preview}
    {before : List SessionStep} {step : SessionStep} {after : List SessionStep} {e : Fault}
    (he : ∀ previous, step.render previous = .error e) {previous : Option Preview}
    {rs : List Rendering} (hrs : renderInTurn next previous before = .ok rs) :
    renderInTurn next previous (before ++ step :: after) = .error e := by
  induction before generalizing previous rs with
  | nil => rw [List.nil_append, renderInTurn, he]
  | cons b before ih =>
    rw [renderInTurn] at hrs
    rw [List.cons_append, renderInTurn]
    cases hb : b.render previous with
    | error e' => simp [hb] at hrs
    | ok r =>
      simp only [hb] at hrs
      cases hrest : renderInTurn next (next previous r.preview) before with
      | error e' => simp [hrest] at hrs
      | ok rest => simp only [ih hrest]

/-- What a session shows whose steps all have an answer. -/
structure Survives (steps : List SessionStep) (rs : List Rendering) : Prop where
  reports : List.Forall₂ SessionStep.Reports steps rs
  /-- A step that fails shows its own message, with the last good preview before it. -/
  kept : ∀ before r after message, rs = before ++ r :: after → r.preview.error = some message →
    ∀ p, lastGood before = some p → r.preview = { p with error := some message }
  /-- Before the first good preview it shows the message alone. -/
  alone : ∀ before r after message, rs = before ++ r :: after → r.preview.error = some message →
    lastGood before = none →
      r.preview = ⟨wrapBody (errorParagraph message), errorParagraph message, some message⟩
  /-- Feeding back every preview, from any start, makes the same renderings from the first good
  preview on. -/
  fedBack : ∀ start, ∃ rs', renderInTurn feedBack start steps = .ok rs' ∧
    ∀ before r after, rs = before ++ r :: after → r.preview.ok = true →
      ∃ before', before'.length = before.length ∧ rs' = before' ++ r :: after

theorem exists_survives {steps : List SessionStep}
    (h : ∀ step ∈ steps, (∃ s, step.Ready s) ∧ step.Answered) :
    ∃ rs, renderSession none steps = .ok rs ∧ Survives steps rs := by
  obtain ⟨rs, hrs, hreports, hshown⟩ := renderInTurn_keepGood h none
  simp only [Option.or_none] at hshown
  refine ⟨rs, by rw [renderSession_eq, hrs], hreports, ?_, ?_, fun start => ?_⟩
  · intro before r after message he hm p hp
    rw [hshown before r after message he hm, hp]
    rfl
  · intro before r after message he hm hp
    rw [hshown before r after message he hm, hp]
    rfl
  · obtain ⟨rs₁, rs', hrs₁, hrs', hsame⟩ := renderInTurn_feedBack h none start
    obtain rfl := Except.ok.inj (hrs.symm.trans hrs₁)
    exact ⟨rs', hrs', hsame⟩

/-- A session whose steps all have settings that a site can have, with time limits that are numbers
of the format. If each step has an answer, the session shows for each step that fails its own
message, with the last good preview before it, or alone if there is none. The first step without an
answer, which takes a text with a lone surrogate, a system without a timer for the limit or an output
that is not UTF-8, ends the session; all steps before it are rendered as in a session of their own. -/
theorem last_good_survives {steps : List SessionStep} (h : ∀ step ∈ steps, ∃ s, step.Ready s) :
    ((∀ step ∈ steps, step.Answered) →
      ∃ rs, renderSession none steps = .ok rs ∧ Survives steps rs) ∧
    ∀ before step after, steps = before ++ step :: after → (∀ b ∈ before, b.Answered) →
      ¬step.Answered →
        (∃ rs, renderSession none before = .ok rs ∧ Survives before rs) ∧
        ∃ run why, renderSession none steps = .error (.aborted run why) := by
  refine ⟨fun ha => exists_survives fun step hstep => ⟨h step hstep, ha step hstep⟩, ?_⟩
  rintro before step after rfl hbefore hstep
  obtain ⟨rs, hrs, hsurvives⟩ := exists_survives fun b hb =>
    ⟨h b (List.mem_append_left _ hb), hbefore b hb⟩
  obtain ⟨s, hs⟩ := h step (List.mem_append_right _ (List.mem_cons_self ..))
  obtain ⟨run, why, hr⟩ := hs.aborted hstep
  refine ⟨⟨rs, hrs, hsurvives⟩, run, why, ?_⟩
  rw [renderSession_eq] at hrs ⊢
  exact renderInTurn_append_error hr hrs

/-- A good step, and one that is too slow under a time limit of its own. -/
theorem last_good_survives_tooSlow :
    ∃ good late message,
      renderSession none
        [⟨none, none, .finished "<hr />" none 0, "a"⟩,
          ⟨none, some (.object [(.plain "parsing_timeout", .int 5)]), .tooSlow, "b"⟩] =
        .ok [good, late] ∧
      good.preview.error = none ∧ late.preview = { good.preview with error := some message } := by
  have hready : ∀ step ∈ ([⟨none, none, .finished "<hr />" none 0, "a"⟩,
      ⟨none, some (.object [(.plain "parsing_timeout", .int 5)]), .tooSlow, "b"⟩] :
        List SessionStep), ∃ s, step.Ready s := by
    rw [List.forall_mem_cons, List.forall_mem_singleton]
    refine ⟨⟨{}, rfl, ⟨none, rfl⟩, fun limit h => ?_⟩, ⟨{ parsingTimeout := .whole 5 }, ?_,
      ⟨_, Settings.ofOptions_timeout (by decide)⟩, fun limit h => ?_⟩⟩
    · cases h
      decide +kernel
    · simp only [setupFrom, Settings.ofOptions_timeout (show (0 : Int) < 5 by decide)]
    · cases h
      decide +kernel
  obtain ⟨rs, hrs, hs⟩ := (last_good_survives hready).1 (by
    rw [List.forall_mem_cons, List.forall_mem_singleton]
    exact ⟨⟨"a", rfl⟩, "b", rfl⟩)
  obtain ⟨good, _, hgood, hrest, rfl⟩ := List.forall₂_cons_left_iff.1 hs.reports
  obtain ⟨late, _, hlate, hnil, rfl⟩ := List.forall₂_cons_left_iff.1 hrest
  obtain rfl := List.forall₂_nil_left_iff.1 hnil
  have hok : good.preview.error = none := hgood.error_iff.2 ⟨_, _, rfl⟩
  have hlast : lastGood [good] = some good.preview := by
    simp [lastGood, Preview.ok, hok]
  cases hm : late.preview.error with
  | none =>
    obtain ⟨_, _, hc⟩ := hlate.error_iff.1 hm
    cases hc
  | some message =>
    exact ⟨good, late, message, hrs, hok, hs.kept [good] late [] message rfl hm _ hlast⟩

end MarkdownPreview
