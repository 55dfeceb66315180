import MarkdownPreview.Proofs.Command.AllOrNothing
import MarkdownPreview.Proofs.Command.Switches
import MarkdownPreview.Proofs.Web.Posts
import MarkdownPreview.Template

/-!
# One preview on every surface

A text can be posted to two endpoints, shown by a template in two ways, and rendered from a file by
the command. Each surface has its own way to name a feature, and its own way to deal with a failed
conversion, but all of them render the text under the same settings. What they show is therefore one
preview, made by the same runs of the converter, and if the run is given up, all of them give up.
Only a post can be too large to be read, and only a page can be kept from being sent by its
stylesheet.

The texts are strings. What is read from a file is one, and a post or a template that brings a text
with lone surrogates has no answer of the converter.

A request or some arguments that come down to a text and some features `Asks` for them. What a
surface shows then follows from one equation, whatever the request or the arguments were.

* `respond_of_asks`, `tag_eq_render`, `filter_eq_render`, `execute_of_asks`, `execute_of_fault`:
  each surface renders the text.
* `asks_of_posts`: a post, as an object or as a form, asks for its text.
* `shown_everywhere`: what all surfaces show.
-/
namespace MarkdownPreview

open Json (Value)
open Web
open Command (Arguments Outlet Prepares sourceIn readArguments execute)
open Files (Path Tree)
open Text (Phrase)

/-! ## Requests -/

/-- A request that is served asks for a text and names the features. -/
def Web.Request.Asks (server : Server) (r : Request) (text : String) (o : FeatureOverrides) : Prop :=
  r.isPost = true ∧ ∃ fields, r.payload server = .ok (some fields) ∧
    textOf? fields = some (.plain text) ∧ overridesOf fields = .ok o

/-- The value that says whether a feature is to be on. -/
def flagValue (o : Option Bool) : Option Value :=
  o.map .bool

/-- The same in a word, for a form. -/
def flagText (o : Option Bool) : Option Value :=
  o.map fun b => .text (if b then "true" else "false")

theorem readFlag_flagValue (o : Option Bool) : readFlag ((flagValue o).getD .null) = .ok o := by
  cases o <;> rfl

theorem readFlag_flagText (o : Option Bool) : readFlag ((flagText o).getD .null) = .ok o := by
  have hword : ∀ b : Bool, (readFlag (.text (if b then "true" else "false"))).toOption =
      some (some b) := by
    decide +kernel
  cases o with
  | none => rfl
  | some b => exact eq_ok_of_toOption (hword b)

theorem asks_of_brings {server : Server} {r : Request} {text : String} {t i : Option Value}
    {o : FeatureOverrides} (h : r.Brings server text t i)
    (ht : readFlag (t.getD .null) = .ok o.taskLists)
    (hi : readFlag (i.getD .null) = .ok o.iconBullets) : r.Asks server text o := by
  obtain ⟨hpost, fields, hp, htext, hfieldt, hfieldi⟩ := h
  refine ⟨hpost, fields, hp, textOf?_eq_some_iff.2 htext, ?_⟩
  · exact overridesOf_ok (by rw [flagOf, hfieldt, ht]) (by rw [flagOf, hfieldi, hi])

section

variable {site : Option Value} {base : Settings} {text : String} {o : FeatureOverrides}

/-- A request is answered by rendering its text. -/
theorem respond_of_asks {server : Server} {r : Request} (hr : r.Asks server text o)
    (hbase : Settings.ofOptions site = .ok base) (e : Endpoint) (c : Converter) :
    e.respond server site c r = e.perform c ⟨text, base.withFeatures o⟩ := by
  obtain ⟨hpost, fields, hp, htext, ho⟩ := hr
  have hjob : r.job server site = .ok ⟨text, base.withFeatures o⟩ := by
    rw [job_of_fields hpost hp, jobOf_ok htext hbase ho]
  exact respond_of_job hjob e c

/-- The parts of a preview are read from the object that shows it. -/
theorem read?_previewObject (p : Preview) : ∃ fields : Json.Fields,
    Json.read? (previewObject p) = some (.object fields) ∧
      fields.get? "html" = some (Value.text p.html) ∧
      fields.get? "error" = some (Json.optionalValue p.error) := by
  refine ⟨_, Json.read?_writeObject _ _, ?_, ?_⟩
  · exact (Json.get?_fieldsOf (by simp)).2 (by simp [Json.optionalValue])
  · exact (Json.get?_fieldsOf (by simp)).2 (by simp)

/-! ## Templates -/

/-- The values of a tag that name some features. -/
def flagValues (o : FeatureOverrides) : Template.FlagValues where
  taskLists := (flagValue o.taskLists).getD .null
  iconBullets := (flagValue o.iconBullets).getD .null

theorem setup_flagValues (base : Settings) (o : FeatureOverrides) :
    (flagValues o).setup base = .of (base.withFeatures o) := by
  obtain ⟨t, i⟩ := o
  cases t <;> cases i <;> rfl

/-- A tag renders its text. -/
theorem tag_eq_render (hbase : Settings.ofOptions site = .ok base) (c : Converter) (text : String)
    (o : FeatureOverrides) :
    Template.tag site c (.text text) (flagValues o) = render (base.withFeatures o) c text := by
  rw [Template.tag, hbase]
  dsimp only
  rw [setup_flagValues]
  rfl

/-- The filter renders its text as a tag that names no features. -/
theorem filter_eq_render (hbase : Settings.ofOptions site = .ok base) (ho : o.isEmpty = true)
    (c : Converter) (text : String) :
    Template.filter site c (.text text) = render (base.withFeatures o) c text := by
  rw [Template.filter, hbase, Settings.withFeatures_isEmpty ho]
  rfl

/-! ## The command -/

/-- Arguments that are followed ask for the preview of a file with a text, and name the features. -/
structure Command.Arguments.Asks (a : Arguments) (t : Tree) (text : String)
    (o : FeatureOverrides) : Prop where
  usable : Command.usablePath a.path = .ok (Path.ofPhrase a.path)
  source : t.read (Path.ofPhrase a.path) = .ok text.toUTF8.toList
  output : a.choices.output = none ∨ a.choices.output = some ""
  raw : a.choices.raw = false
  document : a.choices.document = false
  colors : (a.choices.noColor && a.choices.forceColor) = false
  features : a.choices.features = o

theorem sourceIn_of_asks {a : Arguments} {t : Tree} (ha : a.Asks t text o)
    (htext : '\r' ∉ text.toList) : sourceIn t a.path = .ok text := by
  rw [sourceIn, ha.usable]
  dsimp only
  rw [ha.source]
  dsimp only
  rw [Command.decodeSource, Text.Utf8.toList_toUTF8, Text.Utf8.decode?_encode]
  dsimp only
  rw [Text.withLineFeeds_of_no_return htext, String.ofList_toList]

theorem check_of_asks {a : Arguments} {t : Tree} (ha : a.Asks t text o) :
    a.choices.check = .ok .body := by
  simp [Command.Choices.check, Command.Choices.part?, ha.raw, ha.document, ha.colors]

/-- The command prints the rendering of its text, if that succeeds, and fails with the error
otherwise. -/
theorem execute_of_asks {a : Arguments} {t : Tree} {c : Converter} {y : Rendering}
    (ha : a.Asks t text o) (htext : '\r' ∉ text.toList)
    (hbase : Settings.ofOptions site = .ok base)
    (hy : render (base.withFeatures o) c text = .ok y) (out : Outlet) :
    execute site c out t a =
      { files := t
        outlet := out
        output := if y.preview.ok then y.preview.html else ""
        runs := y.runs
        failure := y.preview.error.map (.unrendered (Path.ofPhrase a.path))
        traceback := a.choices.traceback } := by
  have hprepares := Prepares.rendered (check_of_asks ha) (sourceIn_of_asks ha htext) hbase
    (by rw [ha.features]; exact hy)
  have hrun := Command.run_handle_of_prepares hprepares out
  have hnone : a.choices.target? = none := (Command.target?_eq_none_iff _).2 ha.output
  rw [execute, hrun, Command.run_bind, Command.run_ofExcept, Command.select]
  cases herror : y.preview.error with
  | some reason => simp [Preview.ok, herror, Command.failureOf]
  | none =>
    have hprint : ∀ html : String, out.fault? html = none := by
      intro html
      cases out <;> rfl
    simp [Preview.ok, herror, Command.failureOf, Command.Part.text,
      Command.run_deliver_printed hnone, Command.run_print, hprint]

/-- If the run is given up, so is the command. -/
theorem execute_of_fault {a : Arguments} {t : Tree} {c : Converter} {f : Fault}
    (ha : a.Asks t text o) (htext : '\r' ∉ text.toList)
    (hbase : Settings.ofOptions site = .ok base)
    (hf : render (base.withFeatures o) c text = .error f) (out : Outlet) :
    execute site c out t a =
      { files := t
        outlet := out
        runs := f.runs
        failure := some (.fault f)
        traceback := a.choices.traceback } :=
  Command.execute_of_error (.unrendered (check_of_asks ha) (sourceIn_of_asks ha htext) hbase
    (by rw [ha.features]; exact hf)) out

end

/-! ## All surfaces -/

/-- A post of a text that names the features, as an object or as a form. -/
def Web.Request.Posts (r : Request) (text : String) (o : FeatureOverrides) : Prop :=
  (∃ fs, JsonPost fs r ∧
    fs.Perm (posted text (flagValue o.taskLists) (flagValue o.iconBullets))) ∨
  ∃ fs, FormPost fs r ∧
    (asValues fs).Perm (posted text (flagText o.taskLists) (flagText o.iconBullets))

theorem asks_of_posts {r : Request} {text : String} {o : FeatureOverrides} (h : r.Posts text o)
    (hsize : r.body.length ≤ Request.maxBody) (server : Server) : r.Asks server text o := by
  rcases h with ⟨fs, hr, hfs⟩ | ⟨fs, hr, hfs⟩
  · exact asks_of_brings (hr.brings server hfs hsize) (readFlag_flagValue _) (readFlag_flagValue _)
  · exact asks_of_brings (hr.brings server hfs hsize) (readFlag_flagText _) (readFlag_flagText _)

theorem respond_of_posts_tooLarge {r : Request} {text : String} {o : FeatureOverrides}
    (h : r.Posts text o) (hlarge : Request.maxBody < r.body.length) (e : Endpoint)
    (server : Server) (site : Option Value) (c : Converter) :
    e.respond server site c r = .error (.unreadable .tooLarge) := by
  rcases h with ⟨fs, hr, -⟩ | ⟨fs, hr, hfs⟩
  · exact hr.givenUp server hlarge e site c
  · exact hr.givenUp server hfs hlarge e site c

/-- A preview of a text with some features named is shown on every surface, after the same runs of
the converter. -/
structure ShownEverywhere (server : Server) (site : Option Value) (base : Settings) (c : Converter)
    (text : String) (o : FeatureOverrides) (runs : List Invocation) (p : Preview) : Prop where
  /-- It has no error exactly if the conversion succeeds. -/
  error_iff : p.error = none ↔ ∃ output report, c = .finished output report 0
  /-- The answer of the one endpoint shows it as an object. -/
  object : ∀ r : Request, r.Posts text o → r.body.length ≤ Request.maxBody →
    ∃ (body : String) (fields : Json.Fields),
    Endpoint.render.respond server site c r =
      .ok ⟨{ status := 200, contentType := jsonType, body }, runs⟩ ∧
    Json.read? body = some (.object fields) ∧
    fields.get? "html" = some (.text p.html) ∧
    fields.get? "error" = some (Json.optionalValue p.error)
  /-- The answer of the other one shows it on a page, if the settings leave one. -/
  page : Page.Writable base → ∀ r : Request, r.Posts text o → r.body.length ≤ Request.maxBody →
    ∃ body : String, Endpoint.document.respond server site c r =
      .ok ⟨{ status := 200, contentType := pageType, body }, runs⟩ ∧
    Page.document p (base.withFeatures o) = .ok body ∧
    ∃ before, body = before ++ p.html ++ "</html>\n"
  /-- Otherwise there is no answer. -/
  unsent : ¬Page.Writable base → ∀ r : Request, r.Posts text o →
    r.body.length ≤ Request.maxBody →
    ∃ why, Endpoint.document.respond server site c r = .error (.page why runs)
  /-- A post that is too large is given up, and nothing is run for it. -/
  tooLarge : ∀ r : Request, r.Posts text o → Request.maxBody < r.body.length → ∀ e : Endpoint,
    e.respond server site c r = .error (.unreadable .tooLarge)
  /-- A tag shows it. -/
  tag : ∃ log, Template.tag site c (.text text) (flagValues o) = .ok ⟨p, runs, log⟩
  /-- The filter shows it, if no features are named. -/
  filter : o.isEmpty = true → ∃ log, Template.filter site c (.text text) = .ok ⟨p, runs, log⟩
  /-- The switches of the command name the features. -/
  switches : ∀ path : String, (∀ r, path.toList ≠ '-' :: r) →
    readArguments (path :: (Command.switchesFor o).map Command.Spelling.text) =
      .ok { path, choices := { features := o } }
  /-- The command leaves the files as they are and makes the runs. -/
  unchanged : ∀ out t args a, readArguments args = .ok a → a.Asks t text o →
    (Command.run site c out t args).files = t ∧ (Command.run site c out t args).runs = runs
  /-- It prints the preview that has no error. -/
  printed : p.error = none → ∀ out t args a, readArguments args = .ok a → a.Asks t text o →
    (Command.run site c out t args).failure = none ∧
      (Command.run site c out t args).output = p.html
  /-- It prints nothing of a preview with an error, and reports the error. -/
  reported : ∀ e, p.error = some e → ∀ out t args a, readArguments args = .ok a →
    a.Asks t text o → (Command.run site c out t args).output = "" ∧
      ∃ f, (Command.run site c out t args).failure = some f ∧ f.isReported = true ∧
        f.message = "Failed to render " ++ (Path.ofPhrase a.path).text ++ ": " ++ e

/-- The run of the converter for a text is given up, and so is what each surface was to show. -/
structure GivenUpEverywhere (server : Server) (site : Option Value) (c : Converter) (text : String)
    (o : FeatureOverrides) (run : Invocation) (why : RunFault) : Prop where
  posts : ∀ r : Request, r.Posts text o → r.body.length ≤ Request.maxBody → ∀ e : Endpoint,
    e.respond server site c r = .error (.fault (.aborted run why))
  tag : Template.tag site c (.text text) (flagValues o) = .error (.aborted run why)
  filter : o.isEmpty = true → Template.filter site c (.text text) = .error (.aborted run why)
  command : ∀ out t args a, readArguments args = .ok a → a.Asks t text o →
    (Command.run site c out t args).failure = some (.fault (.aborted run why)) ∧
      (Command.run site c out t args).files = t ∧ (Command.run site c out t args).output = "" ∧
      (Command.run site c out t args).runs = [run]

section

variable {site : Option Value} {base : Settings} {text : String}

/-- A page that can be written ends with the preview's body. -/
theorem exists_before_of_document {p : Preview} {s : Settings} {body : String}
    (h : Page.document p s = .ok body) : ∃ before, body = before ++ p.html ++ "</html>\n" := by
  obtain ⟨-, hcss⟩ := (Page.isPlain_document_iff h).1 (Phrase.isPlain_plain body)
  unfold Page.document at h
  cases hs : Page.stylesheet s with
  | error e =>
    rw [hs] at h
    cases h
  | ok css =>
    rw [hs] at h
    obtain ⟨t, rfl⟩ := (Page.isPlain_stylesheet_iff hs).2 hcss
    cases h
    refine ⟨Page.beforeTitle ++ Text.escaped Page.defaultTitle ++ Page.beforeStylesheet ++ t ++
      (Page.afterStylesheet ++ Page.errorComment p.error), ?_⟩
    simp only [Page.afterBody, String.append_assoc]

/-- A rendering with some features named is shown everywhere. -/
theorem shownEverywhere_of_render {c : Converter} {o : FeatureOverrides} {y : Rendering}
    (server : Server) (htext : '\r' ∉ text.toList) (hbase : Settings.ofOptions site = .ok base)
    (hy : render (base.withFeatures o) c text = .ok y)
    (herror : y.preview.error = none ↔ ∃ output report, c = .finished output report 0) :
    ShownEverywhere server site base c text o y.runs y.preview := by
  have hrespond : ∀ r : Request, r.Posts text o → r.body.length ≤ Request.maxBody →
      ∀ e : Endpoint, e.respond server site c r = e.perform c ⟨text, base.withFeatures o⟩ :=
    fun r hr hsize e => respond_of_asks (asks_of_posts hr hsize server) hbase e c
  have hrun : ∀ {out t args a}, readArguments args = .ok a → a.Asks t text o →
      Command.run site c out t args =
        { files := t
          outlet := out
          output := if y.preview.ok then y.preview.html else ""
          runs := y.runs
          failure := y.preview.error.map (.unrendered (Path.ofPhrase a.path))
          traceback := a.choices.traceback } := by
    intro out t args a hargs ha
    rw [Command.run, hargs]
    exact execute_of_asks ha htext hbase hy out
  exact
    { error_iff := herror
      object := by
        intro r hr hsize
        obtain ⟨fields, hread, hhtml, he⟩ := read?_previewObject y.preview
        have hpresent : Endpoint.render.present (base.withFeatures o) y.preview =
            .ok { status := 200, contentType := jsonType, body := previewObject y.preview } := rfl
        exact ⟨previewObject y.preview, fields,
          (hrespond r hr hsize .render).trans (perform_of_present hy hpresent), hread, hhtml, he⟩
      page := by
        intro hbaseWritable r hr hsize
        have hw := (writable_withFeatures base o).2 hbaseWritable
        obtain ⟨body, hbody⟩ :=
          (Page.document_plain_iff y.preview _ _).2 ⟨hw, Phrase.isPlain_plain _⟩
        have hpresent : Endpoint.document.present (base.withFeatures o) y.preview =
            .ok { status := 200, contentType := pageType, body } := by
          rw [Endpoint.present, sentPage, hbody]
          rfl
        exact ⟨body, (hrespond r hr hsize .document).trans (perform_of_present hy hpresent), hbody,
          exists_before_of_document hbody⟩
      unsent := by
        intro hbaseWritable r hr hsize
        have hw : ¬∃ x, Endpoint.document.present (base.withFeatures o) y.preview = .ok x := by
          rw [present_ok_iff, writable_withFeatures]
          exact fun h => hbaseWritable (h rfl)
        cases hx : Endpoint.document.present (base.withFeatures o) y.preview with
        | error why =>
          exact ⟨why, (hrespond r hr hsize .document).trans (perform_of_no_page hy hx)⟩
        | ok x => exact absurd ⟨x, hx⟩ hw
      tooLarge := fun r hr hlarge e => respond_of_posts_tooLarge hr hlarge e server site c
      tag := ⟨y.log, (tag_eq_render hbase c text o).trans hy⟩
      filter := fun ho => ⟨y.log, (filter_eq_render hbase ho c text).trans hy⟩
      switches := fun path hpath => Command.readArguments_features hpath o
      unchanged := by
        intro out t args a hargs ha
        rw [hrun hargs ha]
        exact ⟨rfl, rfl⟩
      printed := by
        intro hnone out t args a hargs ha
        rw [hrun hargs ha]
        simp [Preview.ok, hnone]
      reported := by
        intro e he out t args a hargs ha
        have hbad : y.preview.ok = false := by rw [Preview.ok, he, Option.isNone_some]
        rw [hrun hargs ha]
        simp only [hbad, he, Option.map_some, Bool.false_eq_true, if_false]
        exact ⟨trivial, _, rfl, rfl, rfl⟩ }

/-- A run that is given up is given up everywhere. -/
theorem givenUpEverywhere_of_render {c : Converter} {o : FeatureOverrides} {run : Invocation}
    {why : RunFault} (server : Server) (htext : '\r' ∉ text.toList)
    (hbase : Settings.ofOptions site = .ok base)
    (hy : render (base.withFeatures o) c text = .error (.aborted run why)) :
    GivenUpEverywhere server site c text o run why where
  posts r hr hsize e :=
    (respond_of_asks (asks_of_posts hr hsize server) hbase e c).trans (perform_of_fault hy)
  tag := (tag_eq_render hbase c text o).trans hy
  filter ho := (filter_eq_render hbase ho c text).trans hy
  command out t args a hargs ha := by
    rw [Command.run, hargs]
    dsimp only
    rw [execute_of_fault ha htext hbase hy out]
    exact ⟨rfl, rfl, rfl, rfl⟩

/-- Whatever features are named, a text is shown everywhere, and always after the same runs; or the
run is given up everywhere. -/
theorem shown_everywhere (server : Server) (hbase : Settings.ofOptions site = .ok base)
    (hl : LimitFits site) (htext : '\r' ∉ text.toList) (c : Converter) :
    (c.Answers text →
      ∃ runs, ∀ o, ∃ p, ShownEverywhere server site base c text o runs p) ∧
    (¬c.Answers text →
      ∃ run, ∀ o, ∃ why, GivenUpEverywhere server site c text o run why) := by
  obtain ⟨plan, hplan⟩ := exists_plan (Settings.accepted_ofOptions hbase) (hl base hbase)
  have hplan' : ∀ o, Plan.of? (base.withFeatures o) = some plan :=
    fun o => (plan_withFeatures base o).trans hplan
  refine ⟨fun ha => ⟨(convert plan c text).1, fun o => ?_⟩,
    fun ha => ⟨plan.invocation text, fun o => ?_⟩⟩
  · obtain ⟨y, hy, hconcludes⟩ := concludes_of_plan (hplan' o) ha none
    have hruns : y.runs = (convert plan c text).1 := by
      have hmade := runsMade_of_plan (u := .of (base.withFeatures o)) (hplan' o) c text none
      rwa [show renderWith (.of (base.withFeatures o)) c text none = .ok y from hy] at hmade
    rw [← hruns]
    exact ⟨_, shownEverywhere_of_render server htext hbase hy hconcludes.error_iff⟩
  · obtain ⟨why, hy⟩ := render_of_no_answer (hplan' o) none ha
    exact ⟨why, givenUpEverywhere_of_render server htext hbase hy⟩

end

/-- The tree that holds one document. -/
def oneDocument : Tree where
  files := [(⟨.above 0, ["a.md".toUTF8.toList]⟩, "[x] &".toUTF8.toList)]

/-- A document without check boxes, posted as a form and rendered by the command. -/
theorem shown_everywhere_noTasks : ∃ (runs : List Invocation) (p : Preview),
    ShownEverywhere plainServer none {} (.finished "<p>[x] &amp;</p>" none 0) "[x] &"
      ⟨some false, none⟩ runs p ∧
    (formPost "task_lists=false&markdown=[x]+%26").Posts "[x] &" ⟨some false, none⟩ ∧
    (Command.run none (.finished "<p>[x] &amp;</p>" none 0) .stream oneDocument
      ["a.md", "--no-task-lists"]).output = p.html := by
  have htext : '\r' ∉ "[x] &".toList := by decide
  obtain ⟨runs, h⟩ := (shown_everywhere plainServer Settings.ofOptions_none limitFits_none htext
    (.finished "<p>[x] &amp;</p>" none 0)).1 (answers_of_finished _)
  obtain ⟨p, hp⟩ := h ⟨some false, none⟩
  have hform : Form.SpellsForm [("task_lists", "false"), ("markdown", "[x] &")]
      "task_lists=false&markdown=[x]+%26".toList := by
    have hwritten := Form.spellsForm_writeForm ("task_lists", "false") [("markdown", "[x] &")]
    have hw : Form.writeForm [("task_lists", "false"), ("markdown", "[x] &")] =
        "task_lists=false&markdown=[x]+%26".toList := by
      decide +kernel
    rwa [hw] at hwritten
  have hargs := hp.switches "a.md" (by simp)
  have hasks : Arguments.Asks { path := "a.md", choices := { features := ⟨some false, none⟩ } }
      oneDocument "[x] &" ⟨some false, none⟩ :=
    ⟨eq_ok_of_toOption (by decide +kernel), eq_ok_of_toOption (by decide +kernel), .inl rfl, rfl,
      rfl, rfl, rfl⟩
  have hposts : (formPost "task_lists=false&markdown=[x]+%26").Posts "[x] &"
      ⟨some false, none⟩ :=
    .inr ⟨_, ⟨rfl, rfl, _, hform, Text.Utf8.toList_toUTF8 _⟩, .swap _ _ _⟩
  exact ⟨runs, p, hp, hposts, (hp.printed (hp.error_iff.2 ⟨_, _, rfl⟩) _ _ _ _ hargs hasks).2⟩

/-- A text that a template shows need not be shown where it is posted, if the post is too large. -/
theorem not_shown_everywhere :
    '\r' ∉ (String.ofList (ampersands 2621440)).toList ∧
    (ampersandObject 2621440).Posts (String.ofList (ampersands 2621440)) {} ∧
    Endpoint.render.respond plainServer none (.missing "m") (ampersandObject 2621440) =
      .error (.unreadable .tooLarge) ∧
    ∃ y, Template.filter none (.missing "m") (.text (String.ofList (ampersands 2621440))) =
      .ok y := by
  have hposts : (ampersandObject 2621440).Posts (String.ofList (ampersands 2621440)) {} :=
    .inl ⟨_, jsonPost_ampersands 2621440, .refl _⟩
  refine ⟨?_, hposts, ?_, ?_⟩
  · rw [String.toList_ofList]
    intro h
    exact absurd (ampersand_of_mem h) (by decide)
  · refine respond_of_posts_tooLarge hposts ?_ ..
    rw [length_ampersandObject, Request.maxBody]
    omega
  · obtain ⟨plan, hplan⟩ := exists_plan (Settings.accepted_ofOptions Settings.ofOptions_none)
      (limitFits_none _ Settings.ofOptions_none)
    have hanswers : Converter.Answers (.missing "m") (String.ofList (ampersands 2621440)) := trivial
    obtain ⟨y, hy, -⟩ := concludes_of_plan hplan hanswers none
    exact ⟨y, (filter_eq_render (o := {}) Settings.ofOptions_none rfl ..).trans hy⟩

end MarkdownPreview
