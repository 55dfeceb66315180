import MarkdownPreview.Command.Run

/-!
# All or nothing

A run of the command first makes the HTML that is to be delivered, and nothing of that touches a
file or prints anything. Then it opens the output file, fills it and tells of it, or it prints the
HTML. A run that fails has printed nothing, and has changed no file unless it had opened one. What
can still go wrong then is that the HTML is not to be encoded, that there is no room for it, or that
the line about it is not to be printed.

* `Prepares`: the ways in which a run gets to HTML, or fails before that, with the runs of the
  converter that are made on the way.
* `exists_prepares`, `run_handle_of_prepares`: each run gets there in one of these ways, and is then
  at an end or delivers the HTML.
* `run_deliver_printed`, `run_deliver_target`: how HTML is delivered.
* `all_or_nothing`: what a run comes to.
-/
namespace MarkdownPreview.Command

open Files (Path Place FileError Tree Content)
open Json (Value)
open Text (Phrase EncodeFault)

/-! ## Steps in turn -/

section

variable {α β : Type}

/-- The second of two steps starts where the first one ends. -/
theorem run_bind (x : Step α) (f : α → Step β) (w : World) :
    (x >>= f).run w =
      match x.run w with
      | (.ok a, w₁) => (f a).run w₁
      | (.error e, w₁) => (.error e, w₁) := by
  show (match x w with | (r, w₁) => ExceptT.bindCont f r w₁) = _
  rcases hx : x w with ⟨r, w₁⟩
  have hx' : x.run w = (r, w₁) := hx
  cases r <;> simp only [hx'] <;> rfl

theorem run_get (w : World) : (get : Step World).run w = (.ok w, w) := rfl

theorem run_modify (g : World → World) (w : World) :
    (modify g : Step PUnit).run w = (.ok ⟨⟩, g w) := rfl

theorem run_ofExcept (r : Except Failure α) (w : World) : (ofExcept r : Step α).run w = (r, w) := by
  cases r <;> rfl

end

theorem run_readSource (name : Phrase) (w : World) :
    (readSource name).run w = (sourceIn w.files name, w) :=
  (run_bind get _ w).trans (run_ofExcept ..)

theorem run_renderText (s : Settings) (c : Converter) (text : String) (w : World) :
    (renderText s c text).run w =
      match render s c text with
      | .error f => (.error (.fault f), { w with runs := w.runs ++ f.runs })
      | .ok r => (.ok r.preview, { w with runs := w.runs ++ r.runs }) := by
  rw [renderText, run_bind, run_modify]
  dsimp only
  rw [run_bind, run_ofExcept]
  cases render s c text <;> rfl

theorem run_produce (site : Option Value) (c : Converter) (choices : Choices) (part : Part)
    (path : Path) (text : String) (w : World) :
    (produce site c choices part path text).run w =
      match Settings.ofOptions site with
      | .error e => (.error (.fault (.options e)), w)
      | .ok base =>
        match render (base.withFeatures choices.features) c text with
        | .error f => (.error (.fault f), { w with runs := w.runs ++ f.runs })
        | .ok r =>
          (select part (base.withFeatures choices.features) path r.preview,
            { w with runs := w.runs ++ r.runs }) := by
  rw [produce, run_bind, run_ofExcept, siteSettings]
  cases Settings.ofOptions site with
  | error e => rfl
  | ok base =>
    rw [mapError_ok]
    dsimp only
    rw [run_bind, run_renderText]
    cases render (base.withFeatures choices.features) c text with
    | error f => rfl
    | ok r => exact run_ofExcept ..

/-! ## Getting to HTML -/

/-- How a run gets to HTML that is to be delivered, or to a failure before that. -/
inductive Prepares (site : Option Value) (c : Converter) (a : Arguments) (t : Tree) :
    Except Failure Phrase → List Invocation → Prop where
  /-- The choices do not go together. -/
  | clash {f : Failure} (hcheck : a.choices.check = .error f) : Prepares site c a t (.error f) []
  | unread {part : Part} {f : Failure} (hcheck : a.choices.check = .ok part)
      (hsource : sourceIn t a.path = .error f) : Prepares site c a t (.error f) []
  /-- The site's settings are rejected. -/
  | rejected {part : Part} {text : String} {e : OptionError} (hcheck : a.choices.check = .ok part)
      (hsource : sourceIn t a.path = .ok text) (hbase : Settings.ofOptions site = .error e) :
      Prepares site c a t (.error (.fault (.options e))) []
  | unrendered {part : Part} {text : String} {base : Settings} {f : Fault}
      (hcheck : a.choices.check = .ok part) (hsource : sourceIn t a.path = .ok text)
      (hbase : Settings.ofOptions site = .ok base)
      (hrender : render (base.withFeatures a.choices.features) c text = .error f) :
      Prepares site c a t (.error (.fault f)) f.runs
  | rendered {part : Part} {text : String} {base : Settings} {r : Rendering}
      (hcheck : a.choices.check = .ok part) (hsource : sourceIn t a.path = .ok text)
      (hbase : Settings.ofOptions site = .ok base)
      (hrender : render (base.withFeatures a.choices.features) c text = .ok r) :
      Prepares site c a t
        (select part (base.withFeatures a.choices.features) (.ofPhrase a.path) r.preview) r.runs

section

variable {site : Option Value} {c : Converter} {a : Arguments} {t : Tree}

theorem exists_prepares (site : Option Value) (c : Converter) (a : Arguments) (t : Tree) :
    ∃ result runs, Prepares site c a t result runs := by
  cases hcheck : a.choices.check with
  | error f => exact ⟨_, _, .clash hcheck⟩
  | ok part =>
  cases hsource : sourceIn t a.path with
  | error f => exact ⟨_, _, .unread hcheck hsource⟩
  | ok text =>
  cases hbase : Settings.ofOptions site with
  | error e => exact ⟨_, _, .rejected hcheck hsource hbase⟩
  | ok base =>
  cases hrender : render (base.withFeatures a.choices.features) c text with
  | error f => exact ⟨_, _, .unrendered hcheck hsource hbase hrender⟩
  | ok r => exact ⟨_, _, .rendered hcheck hsource hbase hrender⟩

theorem run_handle (site : Option Value) (c : Converter) (a : Arguments) (w : World) :
    (handle site c a).run w =
      match a.choices.check with
      | .error f => (.error f, w)
      | .ok part =>
        match sourceIn w.files a.path with
        | .error f => (.error f, w)
        | .ok text =>
          (produce site c a.choices part (.ofPhrase a.path) text >>= deliver a.choices).run w := by
  rw [handle, run_bind, run_ofExcept]
  cases a.choices.check with
  | error f => rfl
  | ok part =>
    dsimp only
    rw [run_bind, run_readSource]
    cases sourceIn w.files a.path <;> rfl

/-- What comes after that is the delivery. -/
theorem run_handle_of_prepares {result : Except Failure Phrase} {runs : List Invocation}
    (h : Prepares site c a t result runs) (o : Outlet) :
    (handle site c a).run { files := t, outlet := o } =
      (ofExcept result >>= deliver a.choices).run { files := t, outlet := o, runs } := by
  rw [run_handle]
  cases h with
  | clash hcheck => simp only [hcheck, run_bind, run_ofExcept]
  | unread hcheck hsource => simp only [hcheck, hsource, run_bind, run_ofExcept]
  | rejected hcheck hsource hbase =>
    simp only [hcheck, hsource, run_bind, run_produce, hbase, run_ofExcept]
  | unrendered hcheck hsource hbase hrender =>
    simp only [hcheck, hsource, run_bind, run_produce, hbase, hrender, run_ofExcept,
      List.nil_append]
  | rendered hcheck hsource hbase hrender =>
    simp only [hcheck, hsource, run_bind, run_produce, hbase, hrender, run_ofExcept,
      List.nil_append]

end

/-! ## Delivery -/

theorem target?_eq_none_iff (choices : Choices) :
    choices.target? = none ↔ choices.output = none ∨ choices.output = some "" := by
  unfold Choices.target?
  cases choices.output with
  | none => simp
  | some name => simp [Option.filter]

theorem target?_eq_some_iff (choices : Choices) (target : Phrase) :
    choices.target? = some target ↔ choices.output = some target ∧ target ≠ "" := by
  unfold Choices.target?
  rw [Option.filter_eq_some_iff, decide_eq_true_eq]

theorem run_print (p : Phrase) (w : World) :
    (print p).run w =
      match w.outlet.fault? p with
      | some e => (.error (.unprinted e), w)
      | none => (.ok (), { w with output := w.output ++ p }) := by
  rw [print, run_bind, run_get]
  dsimp only
  cases w.outlet.fault? p <;> rfl

theorem run_openTarget (name : Phrase) (w : World) :
    (openTarget name).run w =
      match targetIn w.files name with
      | .error f => (.error f, w)
      | .ok place => (.ok place, { w with files := w.files.put place [] }) := by
  rw [openTarget, run_bind, run_get]
  dsimp only
  rw [run_bind, run_ofExcept]
  cases targetIn w.files name <;> rfl

theorem run_fillTarget (place : Place) (html : Phrase) (w : World) :
    (fillTarget place html).run w =
      match html.asString with
      | .error e => (.error (.unencoded e), w)
      | .ok s =>
        (if w.files.fits s.toUTF8.toList then .ok () else .error .noRoom,
          { w with files := w.files.put place (w.files.fitting s.toUTF8.toList) }) := by
  rw [fillTarget, run_bind, run_ofExcept]
  cases html.asString with
  | error e => rfl
  | ok s =>
    rw [mapError_ok]
    dsimp only
    rw [run_bind, run_get]
    dsimp only
    cases hfits : w.files.fits s.toUTF8.toList
    · rfl
    · rfl

theorem run_deliver_printed {choices : Choices} (h : choices.target? = none) (html : Phrase)
    (w : World) : (deliver choices html).run w = (print html).run w := by
  rw [deliver, h]

/-- The output file is opened, filled and told of. -/
theorem run_deliver_target {choices : Choices} {target : Phrase} (h : choices.target? = some target)
    (html : Phrase) (w : World) :
    (deliver choices html).run w =
      match targetIn w.files target with
      | .error f => (.error f, w)
      | .ok place =>
        match html.asString with
        | .error e => (.error (.unencoded e), { w with files := w.files.put place [] })
        | .ok s =>
          if w.files.fits s.toUTF8.toList then
            (print (writtenLine choices target html)).run
              { w with files := w.files.put place s.toUTF8.toList }
          else
            (.error .noRoom,
              { w with files := w.files.put place (w.files.fitting s.toUTF8.toList) }) := by
  rw [deliver, h]
  dsimp only
  rw [run_bind, run_openTarget]
  cases targetIn w.files target with
  | error f => rfl
  | ok place =>
  dsimp only
  rw [run_bind, run_fillTarget]
  cases html.asString with
  | error e => rfl
  | ok s =>
  dsimp only
  have hfits : (w.files.put place []).fits s.toUTF8.toList = w.files.fits s.toUTF8.toList := rfl
  have hfitting : (w.files.put place []).fitting s.toUTF8.toList =
      w.files.fitting s.toUTF8.toList := rfl
  rw [hfits, hfitting, Tree.put_put]
  cases hroom : w.files.fits s.toUTF8.toList with
  | true => rw [if_pos rfl, if_pos rfl, Tree.fitting_of_fits hroom]
  | false => rfl

/-- What an output file holds after a failure that is met when it is open. -/
inductive LeftInFile (o : Outlet) (t : Tree) (html line : Phrase) : Failure → Content → Prop where
  | unencoded {e : EncodeFault} (h : html.asString = .error e) :
      LeftInFile o t html line (.unencoded e) []
  | noRoom {s : String} (hs : html = s) (hroom : t.fits s.toUTF8.toList = false) :
      LeftInFile o t html line .noRoom (t.fitting s.toUTF8.toList)
  /-- All is written, but the line about it cannot be printed. -/
  | unprinted {s : String} {e : EncodeFault} (hs : html = s) (hline : o.fault? line = some e) :
      LeftInFile o t html line (.unprinted e) s.toUTF8.toList

/-- What can be delivered leaves nothing of the kind. -/
theorem LeftInFile.not_deliverable {o : Outlet} {t : Tree} {html line : Phrase} {f : Failure}
    {content : Content} (h : LeftInFile o t html line f content) {s : String} (hs : html = s)
    (hroom : t.fits s.toUTF8.toList = true) (hline : o.fault? line = none) : False := by
  subst hs
  cases h with
  | unencoded he => cases he
  | @noRoom s' hs' hroom' =>
    obtain rfl := Phrase.plain.inj hs'
    cases hroom'.symm.trans hroom
  | unprinted hs' hline' => cases hline'.symm.trans hline

/-- How a delivery ends. -/
inductive Delivers (choices : Choices) (html : Phrase) (w : World) :
    Except Failure Unit × World → Prop where
  | printed (htarget : choices.target? = none) (hprint : w.outlet.fault? html = none) :
      Delivers choices html w (.ok (), { w with output := w.output ++ html })
  | unprinted {e : EncodeFault} (htarget : choices.target? = none)
      (hprint : w.outlet.fault? html = some e) :
      Delivers choices html w (.error (.unprinted e), w)
  | unopened {target : Phrase} {f : Failure} (htarget : choices.target? = some target)
      (hplace : targetIn w.files target = .error f) : Delivers choices html w (.error f, w)
  | spoilt {target : Phrase} {place : Place} {f : Failure} {content : Content}
      (htarget : choices.target? = some target) (hplace : targetIn w.files target = .ok place)
      (hleft : LeftInFile w.outlet w.files html (writtenLine choices target html) f content) :
      Delivers choices html w (.error f, { w with files := w.files.put place content })
  | written {target : Phrase} {place : Place} {s : String} (htarget : choices.target? = some target)
      (hplace : targetIn w.files target = .ok place) (hs : html = s)
      (hroom : w.files.fits s.toUTF8.toList = true)
      (hline : w.outlet.fault? (writtenLine choices target html) = none) :
      Delivers choices html w
        (.ok (),
          { w with
            files := w.files.put place s.toUTF8.toList
            output := w.output ++ writtenLine choices target html })

theorem delivers (choices : Choices) (html : Phrase) (w : World) :
    Delivers choices html w ((deliver choices html).run w) := by
  cases htarget : choices.target? with
  | none =>
    rw [run_deliver_printed htarget, run_print]
    cases hprint : w.outlet.fault? html with
    | none => exact .printed htarget hprint
    | some e => exact .unprinted htarget hprint
  | some target =>
  rw [run_deliver_target htarget]
  cases hplace : targetIn w.files target with
  | error f => exact .unopened htarget hplace
  | ok place =>
  cases hs : html.asString with
  | error e => exact .spoilt htarget hplace (.unencoded hs)
  | ok s =>
  have hs' := Phrase.asString_ok_iff.1 hs
  dsimp only
  cases hroom : w.files.fits s.toUTF8.toList with
  | false => exact .spoilt htarget hplace (.noRoom hs' hroom)
  | true =>
    rw [if_pos rfl, run_print]
    cases hline : w.outlet.fault? (writtenLine choices target html) with
    | none => exact .written htarget hplace hs' hroom hline
    | some e => exact .spoilt htarget hplace (.unprinted hs' hline)

/-! ## What is selected -/

/-- The HTML that a run selects: the choices go together, the document is a text, the settings are
accepted, its conversion succeeds, and there is a page if one is wanted. -/
def Selects (site : Option Value) (c : Converter) (t : Tree) (a : Arguments) (html : Phrase) :
    Prop :=
  ¬(a.choices.raw = true ∧ a.choices.document = true) ∧
    ∃ text base r, sourceIn t a.path = .ok text ∧ Settings.ofOptions site = .ok base ∧
      render (base.withFeatures a.choices.features) c text = .ok r ∧ r.preview.error = none ∧
      (.ok html : Except Page.StyleFault Phrase) =
        if a.choices.raw then .ok (.plain r.preview.rawHtml)
        else if a.choices.document then
          Page.document r.preview (base.withFeatures a.choices.features) (Path.ofPhrase a.path).name
        else .ok (.plain r.preview.html)

/-- Without a demand for colours, only two parts can clash. -/
theorem check_ok_iff {choices : Choices} (h : choices.forceColor = false) (part : Part) :
    choices.check = .ok part ↔ choices.part? = some part := by
  unfold Choices.check
  cases choices.part? <;> simp [h]

theorem exists_part_iff (choices : Choices) :
    (∃ part, choices.part? = some part) ↔ ¬(choices.raw = true ∧ choices.document = true) := by
  unfold Choices.part?
  cases choices.raw <;> cases choices.document <;> simp

theorem text_of_part {choices : Choices} {part : Part} (h : choices.part? = some part)
    (s : Settings) (title : Phrase) (p : Preview) :
    part.text s title p =
      if choices.raw then .ok (.plain p.rawHtml)
      else if choices.document then Page.document p s title else .ok (.plain p.html) := by
  unfold Choices.part? at h
  cases hraw : choices.raw <;> cases hdoc : choices.document <;> rw [hraw, hdoc] at h <;> cases h
    <;> rfl

/-- What is selected of a preview is a part of a good one. -/
theorem select_ok_iff (part : Part) (s : Settings) (path : Path) (p : Preview) (html : Phrase) :
    select part s path p = .ok html ↔ p.error = none ∧ part.text s path.name p = .ok html := by
  unfold select
  cases p.error with
  | some reason => simp
  | none => cases part.text s path.name p <;> simp

section

variable {site : Option Value} {c : Converter} {a : Arguments} {t : Tree} {o : Outlet}

theorem selects_iff_prepares (hcolor : a.choices.forceColor = false) (html : Phrase) :
    Selects site c t a html ↔ ∃ runs, Prepares site c a t (.ok html) runs := by
  constructor
  · rintro ⟨hparts, text, base, r, hsource, hbase, hr, herror, hhtml⟩
    obtain ⟨part, hpart⟩ := (exists_part_iff a.choices).2 hparts
    have hselect := (select_ok_iff part (base.withFeatures a.choices.features)
      (.ofPhrase a.path) r.preview html).2 ⟨herror, (text_of_part hpart ..).trans hhtml.symm⟩
    exact ⟨r.runs, hselect ▸ .rendered ((check_ok_iff hcolor part).2 hpart) hsource hbase hr⟩
  · rintro ⟨runs, h⟩
    generalize hresult : Except.ok html = result at h
    cases h with
    | clash | unread | rejected | unrendered => cases hresult
    | @rendered part text base r hcheck hsource hbase hrender =>
      obtain ⟨herror, hhtml⟩ := (select_ok_iff ..).1 hresult.symm
      have hpart := (check_ok_iff hcolor part).1 hcheck
      exact ⟨(exists_part_iff a.choices).1 ⟨part, hpart⟩, text, base, r, hsource, hbase, hrender,
        herror, hhtml.symm.trans (text_of_part hpart ..)⟩

/-- The converter is run once at most on the way to HTML. -/
theorem Prepares.runs_le_one {result : Except Failure Phrase} {runs : List Invocation}
    (h : Prepares site c a t result runs) : runs.length ≤ 1 := by
  cases h with
  | clash | unread | rejected => exact Nat.zero_le 1
  | @unrendered part text base f hcheck hsource hbase hrender =>
    have hone := runsMade_le_one (.of (base.withFeatures a.choices.features)) c text none
    rwa [show renderWith _ c text none = .error f from hrender] at hone
  | @rendered part text base r hcheck hsource hbase hrender =>
    have hone := runsMade_le_one (.of (base.withFeatures a.choices.features)) c text none
    rwa [show renderWith _ c text none = .ok r from hrender] at hone

/-- It is run only for a text, with choices that go together and settings that are accepted. -/
theorem Prepares.ready {result : Except Failure Phrase} {runs : List Invocation}
    (h : Prepares site c a t result runs) (hcolor : a.choices.forceColor = false)
    (hruns : runs ≠ []) : ¬(a.choices.raw = true ∧ a.choices.document = true) ∧
      (∃ text, sourceIn t a.path = .ok text) ∧ ∃ s, Settings.ofOptions site = .ok s := by
  have hparts : ∀ part, a.choices.check = .ok part →
      ¬(a.choices.raw = true ∧ a.choices.document = true) := fun part hcheck =>
    (exists_part_iff a.choices).1 ⟨part, (check_ok_iff hcolor part).1 hcheck⟩
  cases h with
  | clash | unread | rejected => exact absurd rfl hruns
  | unrendered hcheck hsource hbase => exact ⟨hparts _ hcheck, ⟨_, hsource⟩, _, hbase⟩
  | rendered hcheck hsource hbase => exact ⟨hparts _ hcheck, ⟨_, hsource⟩, _, hbase⟩

theorem Prepares.unique {result result' : Except Failure Phrase} {runs runs' : List Invocation}
    (h : Prepares site c a t result runs) (h' : Prepares site c a t result' runs') :
    result = result' ∧ runs = runs' := by
  cases h <;> cases h' <;> simp_all

theorem execute_of_error {f : Failure} {runs : List Invocation}
    (h : Prepares site c a t (.error f) runs) (o : Outlet) :
    execute site c o t a =
      { files := t, outlet := o, runs, failure := some f, traceback := a.choices.traceback } := by
  rw [execute, run_handle_of_prepares h, run_bind, run_ofExcept]
  rfl

/-- A run that gets to HTML ends as its delivery does. -/
theorem execute_of_ok {html : Phrase} {runs : List Invocation}
    (h : Prepares site c a t (.ok html) runs) (o : Outlet) :
    ∃ y, Delivers a.choices html { files := t, outlet := o, runs } y ∧
      execute site c o t a =
        { toWorld := y.2, failure := failureOf y.1, traceback := a.choices.traceback } := by
  refine ⟨_, delivers _ _ _, ?_⟩
  rw [execute, run_handle_of_prepares h, run_bind, run_ofExcept]
  rfl

end

/-! ## What a run comes to -/

/-- The line that tells of a written file. -/
def reportLine (target html : Phrase) : Phrase :=
  Text.endingLine (.plain ("Wrote " ++ toString html.length ++ " characters to ") ++ target)

/-- HTML can go where it is to go. It is printed if there is no file to write, or an empty name for
it. Otherwise the file can be opened and has room for it, it can be encoded, and the line about it
can be printed. -/
structure Deliverable (o : Outlet) (t : Tree) (choices : Choices) (html : Phrase) : Prop where
  printable : choices.output = none ∨ choices.output = some "" → o.fault? html = none
  writable : ∀ target, choices.output = some target → target ≠ "" →
    (∃ place, targetIn t target = .ok place) ∧
      (∃ s : String, html = s ∧ t.fits s.toUTF8.toList = true) ∧
      o.fault? (reportLine target html) = none

/-- A run of the command did what was asked for, or nothing, or it has spoilt the output file. -/
structure AllOrNothing (site : Option Value) (c : Converter) (o : Outlet) (t : Tree) (a : Arguments)
    (x : Run) : Prop where
  silent : ∀ f, x.failure = some f → x.output = ""
  /-- If it fails, no file has changed, unless the failure is one that is met when the output file is
  open. Then that file holds what such a failure leaves, and no other file has changed. -/
  nothing : ∀ f, x.failure = some f → x.files = t ∨
    ∃ html target place content, Selects site c t a html ∧ a.choices.output = some target ∧
      target ≠ "" ∧ targetIn t target = .ok place ∧
      LeftInFile o t html (reportLine target html) f content ∧
      x.files.file? place = some content ∧ t.SameBut place x.files
  /-- It succeeds exactly if there is HTML to show and it can go where it is to go. -/
  succeeds : x.failure = none ↔ ∃ html, Selects site c t a html ∧ Deliverable o t a.choices html
  /-- Without a file to write, or with an empty name for it, the HTML is printed. -/
  printed : x.failure = none → a.choices.output = none ∨ a.choices.output = some "" →
    Selects site c t a x.output ∧ x.files = t
  /-- Otherwise it is in that file, no other file has changed, and one line is printed. -/
  written : x.failure = none → ∀ target, a.choices.output = some target → target ≠ "" →
    ∃ (html : String) (place : Place), Selects site c t a html ∧ targetIn t target = .ok place ∧
      x.files.file? place = some html.toUTF8.toList ∧ t.SameBut place x.files ∧
      x.output = reportLine target html
  /-- The converter is run once at most. -/
  once : x.runs.length ≤ 1
  /-- It is run only if the choices go together, the document is a text and the settings are
  accepted. -/
  ready : x.runs ≠ [] → ¬(a.choices.raw = true ∧ a.choices.document = true) ∧
    (∃ text, sourceIn t a.path = .ok text) ∧ ∃ s, Settings.ofOptions site = .ok s

theorem writtenLine_eq {choices : Choices} (h : choices.forceColor = false) (target html : Phrase) :
    writtenLine choices target html = reportLine target html := by
  rw [writtenLine, h]
  rfl

section

variable {site : Option Value} {c : Converter} {a : Arguments} {t : Tree} {o : Outlet}
  {html : Phrase}

theorem deliverable_of_printed (h : a.choices.target? = none) :
    Deliverable o t a.choices html ↔ o.fault? html = none := by
  have hout := (target?_eq_none_iff a.choices).1 h
  refine ⟨fun hd => hd.printable hout, fun hp => ⟨fun _ => hp, fun target htarget hne => ?_⟩⟩
  cases h.symm.trans ((target?_eq_some_iff a.choices target).2 ⟨htarget, hne⟩)

theorem deliverable_of_target {target : Phrase} (h : a.choices.target? = some target) :
    Deliverable o t a.choices html ↔ (∃ place, targetIn t target = .ok place) ∧
      (∃ s : String, html = s ∧ t.fits s.toUTF8.toList = true) ∧
      o.fault? (reportLine target html) = none := by
  obtain ⟨hout, hne⟩ := (target?_eq_some_iff a.choices target).1 h
  refine ⟨fun hd => hd.writable target hout hne, fun hw => ⟨fun hnone => ?_, ?_⟩⟩
  · cases h.symm.trans ((target?_eq_none_iff a.choices).2 hnone)
  · intro target' hout' _
    obtain rfl := Option.some.inj (hout.symm.trans hout')
    exact hw

/-- A run that fails is all or nothing if there is nothing to deliver or no way to do so. -/
theorem AllOrNothing.of_failure (hcolor : a.choices.forceColor = false) {x : Run} {f : Failure}
    {result : Except Failure Phrase} (h : Prepares site c a t result x.runs)
    (hfailure : x.failure = some f) (houtput : x.output = "")
    (hfiles : x.files = t ∨
      ∃ html target place content, Selects site c t a html ∧ a.choices.output = some target ∧
        target ≠ "" ∧ targetIn t target = .ok place ∧
        LeftInFile o t html (reportLine target html) f content ∧
        x.files.file? place = some content ∧ t.SameBut place x.files)
    (hfails : ∀ html, result = .ok html → ¬Deliverable o t a.choices html) :
    AllOrNothing site c o t a x where
  silent _ _ := houtput
  nothing f' hf' := by
    obtain rfl := Option.some.inj (hfailure.symm.trans hf')
    exact hfiles
  succeeds := by
    rw [hfailure]
    refine iff_of_false nofun ?_
    rintro ⟨html, hselects, hd⟩
    obtain ⟨runs', h'⟩ := (selects_iff_prepares hcolor html).1 hselects
    exact hfails html (h.unique h').1 hd
  printed hx := by cases hfailure.symm.trans hx
  written hx := by cases hfailure.symm.trans hx
  once := h.runs_le_one
  ready := h.ready hcolor

/-- A run of the command is all or nothing. -/
theorem all_or_nothing (hcolor : a.choices.forceColor = false) :
    AllOrNothing site c o t a (execute site c o t a) := by
  obtain ⟨result, runs, h⟩ := exists_prepares site c a t
  cases result with
  | error f =>
    rw [execute_of_error h]
    exact .of_failure hcolor h rfl rfl (.inl rfl) nofun
  | ok html =>
  have hselects := (selects_iff_prepares hcolor html).2 ⟨runs, h⟩
  obtain ⟨y, hdelivers, hx⟩ := execute_of_ok h o
  rw [hx]
  cases hdelivers with
  | unprinted htarget hprint =>
    refine .of_failure hcolor h rfl rfl (.inl rfl) fun html' hhtml hd => ?_
    obtain rfl := Except.ok.inj hhtml
    cases hprint.symm.trans ((deliverable_of_printed htarget).1 hd)
  | unopened htarget hplace =>
    refine .of_failure hcolor h rfl rfl (.inl rfl) fun html' _ hd => ?_
    obtain ⟨⟨place, hplace'⟩, -⟩ := (deliverable_of_target htarget).1 hd
    cases hplace.symm.trans hplace'
  | @spoilt target place f content htarget hplace hleft =>
    obtain ⟨hout, hne⟩ := (target?_eq_some_iff a.choices target).1 htarget
    rw [writtenLine_eq hcolor] at hleft
    have hfiles := Tree.file?_put_self t place content
    refine .of_failure hcolor h rfl rfl (.inr ⟨html, target, place, content, hselects, hout, hne,
      hplace, hleft, hfiles, Tree.sameBut_put t place content⟩) fun html' hhtml hd => ?_
    obtain rfl := Except.ok.inj hhtml
    obtain ⟨-, ⟨s, hs, hroom⟩, hline⟩ := (deliverable_of_target htarget).1 hd
    exact hleft.not_deliverable hs hroom hline
  | printed htarget hprint =>
    have hout := (target?_eq_none_iff a.choices).1 htarget
    have hd : Deliverable o t a.choices html := (deliverable_of_printed htarget).2 hprint
    exact
      { silent := nofun
        nothing := nofun
        succeeds := iff_of_true rfl ⟨html, hselects, hd⟩
        printed := fun _ _ => ⟨by rwa [Phrase.empty_append], rfl⟩
        written := fun _ target hout' hne => by
          cases htarget.symm.trans ((target?_eq_some_iff a.choices target).2 ⟨hout', hne⟩)
        once := h.runs_le_one
        ready := h.ready hcolor }
  | @written target place s htarget hplace hs hroom hline =>
    subst hs
    rw [writtenLine_eq hcolor] at hline ⊢
    have hd : Deliverable o t a.choices s :=
      (deliverable_of_target htarget).2 ⟨⟨place, hplace⟩, ⟨s, rfl, hroom⟩, hline⟩
    exact
      { silent := nofun
        nothing := nofun
        succeeds := iff_of_true rfl ⟨s, hselects, hd⟩
        printed := fun _ hout => by
          cases htarget.symm.trans ((target?_eq_none_iff a.choices).2 hout)
        written := fun _ target' hout' hne => by
          obtain rfl := Option.some.inj
            (htarget.symm.trans ((target?_eq_some_iff a.choices target').2 ⟨hout', hne⟩))
          exact ⟨s, place, hselects, hplace, Tree.file?_put_self .., Tree.sameBut_put ..,
            Phrase.empty_append _⟩
        once := h.runs_le_one
        ready := h.ready hcolor }

end

/-- A document is written over by its own preview. -/
theorem all_or_nothing_inPlace :
    ∃ (t : Tree) (a : Arguments) (x : Run), a.path = "a.md" ∧ a.choices.output = some "a.md" ∧
      AllOrNothing none (.finished "<p>A</p>" none 0) .stream t a x ∧ x.failure = none ∧
      x.output = "Wrote 54 characters to a.md\n" := by
  let t : Tree := { files := [(⟨.above 0, ["a.md".toUTF8.toList]⟩, [65])] }
  let a : Arguments := { path := "a.md", choices := { output := some "a.md" } }
  have hx : (execute none (.finished "<p>A</p>" none 0) .stream t a).failure = none ∧
      (execute none (.finished "<p>A</p>" none 0) .stream t a).output =
        "Wrote 54 characters to a.md\n" := by
    decide +kernel
  exact ⟨t, a, _, rfl, rfl, all_or_nothing rfl, hx.1, hx.2⟩

section

variable {site : Option Value} {c : Converter} {a : Arguments} {t : Tree} {target html : Phrase}
  {place : Place} {runs : List Invocation}

/-- HTML that cannot be encoded leaves an empty output file. -/
theorem execute_of_not_plain (h : Prepares site c a t (.ok html) runs)
    (htarget : a.choices.target? = some target) (hplace : targetIn t target = .ok place)
    (hhtml : ¬html.IsPlain) (o : Outlet) :
    ∃ e, (execute site c o t a).failure = some (.unencoded e) ∧
      (execute site c o t a).files.file? place = some [] := by
  cases hs : html.asString with
  | ok s => exact absurd ⟨s, Phrase.asString_ok_iff.1 hs⟩ hhtml
  | error e =>
    refine ⟨e, ?_⟩
    rw [execute, run_handle_of_prepares h, run_bind, run_ofExcept]
    dsimp only
    rw [run_deliver_target htarget]
    simp only [hplace, hs, failureOf, Tree.file?_put_self, and_self]

end

/-- A stylesheet of one's own with a lone surrogate is accepted, but no page with it can be encoded.
A run that writes such a page fails, and the output file is there then, and empty. -/
theorem not_all_or_nothing :
    ∃ (css : Phrase) (t : Tree) (a : Arguments) (place : Place) (x : Run) (e : EncodeFault),
      ¬css.IsPlain ∧ a.choices.forceColor = false ∧
      x = execute (some (.object [("custom_css", .phrase css)])) (.finished "" (some "") 0) .memory
        t a ∧
      x.failure = some (.unencoded e) ∧ t.file? place = none ∧ x.files.file? place = some [] := by
  let css : Phrase := .broken [.lone 0xd800] rfl
  let t : Tree := { files := [(⟨.above 0, ["a.md".toUTF8.toList]⟩, [120])] }
  let a : Arguments :=
    { path := "a.md", choices := { output := some "out.html", document := true } }
  let place : Place := ⟨.above 0, ["out.html".toUTF8.toList]⟩
  let s : Settings := { customCss := css }
  have hcss : ¬css.IsPlain := fun ⟨_, h⟩ => nomatch h
  have hbase : Settings.ofOptions (some (.object [("custom_css", .phrase css)])) = .ok s :=
    eq_ok_of_toOption (by decide +kernel)
  have hsource : sourceIn t a.path = .ok "x" := eq_ok_of_toOption (by decide +kernel)
  have hplace : targetIn t "out.html" = .ok place := eq_ok_of_toOption (by decide +kernel)
  have hgood : ((render s (.finished "" (some "") 0) "x").toOption.map
      fun r => r.preview.error) = some none := by
    decide +kernel
  cases hr : render s (.finished "" (some "") 0) "x" with
  | error f =>
    rw [hr] at hgood
    cases hgood
  | ok r =>
    rw [hr] at hgood
    obtain ⟨page, hpage⟩ := (Page.document_ok_iff r.preview s (Path.ofPhrase a.path).name).2
      fun _ => by decide +kernel
    have hselect : select .page s (.ofPhrase a.path) r.preview = .ok page :=
      (select_ok_iff ..).2 ⟨Option.some.inj hgood, hpage⟩
    have hprepares : Prepares (some (.object [("custom_css", .phrase css)]))
        (.finished "" (some "") 0) a t (.ok page) r.runs :=
      hselect ▸ .rendered rfl hsource hbase hr
    have hplain : ¬page.IsPlain := fun h => hcss ((Page.isPlain_document_iff hpage).1 h).2
    obtain ⟨e, hfailure, hfile⟩ := execute_of_not_plain hprepares rfl hplace hplain .memory
    exact ⟨css, t, a, place, _, e, hcss, rfl, rfl, hfailure, by decide +kernel, hfile⟩

end MarkdownPreview.Command
