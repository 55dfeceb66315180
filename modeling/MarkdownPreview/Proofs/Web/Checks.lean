import MarkdownPreview.Proofs.Preview.Outcome
import MarkdownPreview.Web.Endpoint

/-!
# The checks of a request

A request is checked for six things in turn: its method, that its body is a mapping of fields, the
text among them, the site's options, and the two flags. The first check that it fails decides the
answer, and nothing runs. For a request that passes them all the converter is run once at most, and
what it answers is shown, be it an output or a message. There is no answer if the run itself is given
up, or if the site's settings leave no page that could be sent.

Some requests are given up before that. A header may be unreadable, and so may a body that is looked
at: it is too large, has too many fields, is a form in a foreign charset, or one in parts that its
reader refuses. A body that nests too deep is given up as well.

* `flagOf_ok_iff`: which values are read as flags.
* `passes_or_decides`: a request passes every check, or one of them decides.
* `respond_of_decides`: what a request is answered that fails a check.
* `respond_of_passes`: what a request is answered that passes them all.
* `checked_before_run`: how a request is answered.
-/
namespace MarkdownPreview.Web

open Json (Value Fields)
open Text (Point Phrase)

/-! ## Flags -/

/-- What a request may say about a feature: nothing, null, a Boolean, or one of eight words. -/
def IsFlag : Option Value → Prop
  | none | some .null | some (.bool _) => True
  | some v => ∃ word ∈ onWords ++ offWords, asWord v = Point.ofChars word.toList

theorem flagWord?_eq_none_iff (word : List Point) :
    flagWord? word = none ↔ ¬∃ w ∈ onWords ++ offWords, word = Point.ofChars w.toList := by
  have hany : ∀ words : List String,
      (∃ w ∈ words, word = Point.ofChars w.toList) ↔
        (words.any fun w => decide (Point.ofChars w.toList = word)) = true := by
    intro words
    simp only [List.any_eq_true, decide_eq_true_eq]
    exact exists_congr fun w => and_congr_right fun _ => eq_comm
  rw [hany, List.any_append]
  unfold flagWord?
  extract_lets spells
  cases onWords.any spells with
  | true => simp
  | false => cases offWords.any spells <;> simp

theorem readWord_ok_iff_exists (word : List Point) : (∃ o, readWord word = .ok o) ↔
    ∃ w ∈ onWords ++ offWords, word = Point.ofChars w.toList := by
  rw [← not_iff_not, ← flagWord?_eq_none_iff]
  unfold readWord
  cases flagWord? word with
  | none => simp
  | some b => simp

/-- A feature's field is read exactly if it holds a flag. -/
theorem flagOf_ok_iff (fields : Fields) (f : Feature) :
    (∃ o, flagOf fields f = .ok o) ↔ IsFlag (fields.get? f.name) := by
  unfold flagOf
  cases fields.get? f.name with
  | none => exact iff_of_true ⟨none, rfl⟩ trivial
  | some v =>
    cases v with
    | null => exact iff_of_true ⟨none, rfl⟩ trivial
    | bool b => exact iff_of_true ⟨some b, rfl⟩ trivial
    | _ => exact readWord_ok_iff_exists _

/-- A field that holds no flag is refused with the word it was read as. -/
theorem flagOf_error {fields : Fields} {f : Feature} (h : ¬IsFlag (fields.get? f.name)) :
    ∃ v, fields.get? f.name = some v ∧ flagOf fields f = .error ⟨asWord v⟩ := by
  rw [← flagOf_ok_iff] at h
  unfold flagOf at h ⊢
  cases hv : fields.get? f.name with
  | none => exact absurd ⟨none, by rw [hv]; rfl⟩ h
  | some v =>
    rw [hv] at h
    refine ⟨v, rfl, ?_⟩
    have hn : v ≠ .null := by
      rintro rfl
      exact h ⟨none, rfl⟩
    have hb : ∀ b, v ≠ .bool b := by
      rintro b rfl
      exact h ⟨some b, rfl⟩
    rw [Option.getD_some, readFlag_of_word hn hb] at h ⊢
    unfold readWord at h ⊢
    cases hw : flagWord? (asWord v) with
    | none => rfl
    | some b => exact absurd ⟨some b, by rw [hw]⟩ h

/-! ## Checks -/

/-- What a request is checked for. -/
inductive Check where
  | method
  /-- The body is a mapping of fields. -/
  | object
  | text
  /-- The site's options, whatever the request. -/
  | options
  | flag (f : Feature)
  deriving DecidableEq, Repr

/-- The fields that a request brings, if its body is a mapping of fields. -/
def Request.payload (server : Server) (r : Request) : Except Unreadable (Option Fields) :=
  match r.header with
  | .error e => .error (.header e)
  | .ok t => r.fields? server t

namespace Check

/-- The checks in the order in which they are made. -/
def inOrder : List Check :=
  [method, object, text, options, flag .taskLists, flag .iconBullets]

/-- The checks that are made before another one. -/
def earlier (check : Check) : List Check :=
  inOrder.takeWhile (· ≠ check)

/-- Whether a request passes a check. -/
def Holds (server : Server) (site : Option Value) (r : Request) : Check → Prop
  | method => r.isPost = true
  | object => ∃ fields, r.payload server = .ok (some fields)
  | text => ∃ fields p, r.payload server = .ok (some fields) ∧ fields.get? textField = some (.phrase p)
  | options => ∃ s, Settings.ofOptions site = .ok s
  | flag f => ∃ fields, r.payload server = .ok (some fields) ∧ IsFlag (fields.get? f.name)

/-- A check decides if it is the first one that the request fails. -/
structure Decides (server : Server) (site : Option Value) (r : Request) (check : Check) :
    Prop where
  earlier : ∀ k ∈ check.earlier, k.Holds server site r
  fails : ¬check.Holds server site r

/-- The answer to a request that fails a check: it says what is wrong, and nothing has run. -/
def Refuses (server : Server) (site : Option Value) (r : Request)
    (answer : Except Failure Exchange) : Check → Prop
  | method =>
    answer = .ok ⟨{ status := 405, contentType := pageType, allow := some "POST", body := "" }, []⟩
  | object =>
    answer = .ok ⟨{ status := 400, contentType := pageType,
                    body := "Request body must be a JSON object" }, []⟩
  | text =>
    answer = .ok ⟨{ status := 400, contentType := pageType,
                    body := "Missing 'markdown' field" }, []⟩
  | options => ∃ e, Settings.ofOptions site = .error e ∧ answer = .error (.fault (.options e))
  | flag f => ∃ fields v, r.payload server = .ok (some fields) ∧ fields.get? f.name = some v ∧
    answer = .ok ⟨{ status := 400, contentType := pageType,
                    body := "Not a boolean: " ++ String.ofList (Point.quoted (asWord v)) }, []⟩

theorem mem_inOrder (check : Check) : check ∈ inOrder := by
  cases check with
  | flag f => cases f <;> decide
  | _ => decide

/-- Of two checks one is made before the other. -/
theorem earlier_total : ∀ a ∈ inOrder, ∀ b ∈ inOrder, a ≠ b → a ∈ b.earlier ∨ b ∈ a.earlier := by
  decide

/-- Only one check decides. -/
theorem Decides.unique {server : Server} {site : Option Value} {r : Request} {a b : Check}
    (ha : a.Decides server site r) (hb : b.Decides server site r) : a = b := by
  by_contra hne
  rcases earlier_total a (mem_inOrder a) b (mem_inOrder b) hne with h | h
  · exact ha.fails (hb.earlier a h)
  · exact hb.fails (ha.earlier b h)

/-- No check gives a request up as unreadable. -/
theorem not_refuses_unreadable {server : Server} {site : Option Value} {r : Request}
    (why : Unreadable) (check : Check) :
    ¬check.Refuses server site r (.error (.unreadable why)) := by
  intro h
  cases check with
  | options =>
    obtain ⟨_, -, he⟩ := h
    cases he
  | flag f =>
    obtain ⟨_, _, -, -, he⟩ := h
    cases he
  | _ => cases h

end Check

/-- Whether a request passes every check. -/
def Request.Passes (server : Server) (site : Option Value) (r : Request) : Prop :=
  ∀ check ∈ Check.inOrder, check.Holds server site r

theorem hold_or_first_fails {α : Type} [DecidableEq α] (P : α → Prop) (l : List α) :
    (∀ a ∈ l, P a) ∨ ∃ a, (∀ b ∈ l.takeWhile (· ≠ a), P b) ∧ ¬P a := by
  induction l with
  | nil => exact .inl fun _ h => nomatch h
  | cons b l ih =>
    by_cases hb : P b
    · refine ih.imp (fun h => List.forall_mem_cons.2 ⟨hb, h⟩) ?_
      rintro ⟨a, hbefore, ha⟩
      have hne : b ≠ a := by
        rintro rfl
        exact ha hb
      refine ⟨a, ?_, ha⟩
      rw [List.takeWhile_cons_of_pos (by simpa using hne)]
      exact List.forall_mem_cons.2 ⟨hb, hbefore⟩
    · exact .inr ⟨b, by simp, hb⟩

/-- A request passes every check, or one of them decides. -/
theorem passes_or_decides (server : Server) (site : Option Value) (r : Request) :
    r.Passes server site ∨ ∃ check : Check, check.Decides server site r :=
  (hold_or_first_fails (Check.Holds server site r) Check.inOrder).imp_right
    fun ⟨check, hearlier, hfails⟩ => ⟨check, hearlier, hfails⟩

/-! ## Jobs -/

/-- The header of a request can be read, and so can its body if that is looked at. -/
def Request.Readable (server : Server) (r : Request) : Prop :=
  ∃ t, r.header = .ok t ∧ (r.isPost = true → ∃ payload, r.fields? server t = .ok payload)

section

variable {server : Server} {site : Option Value} {r : Request}

/-- A header with one of the two names is read as that name. -/
theorem header_of_name (h : r.contentType = jsonType ∨ r.contentType = formType) :
    r.header = .ok { name := r.contentType.toList } := by
  have hname : ∀ type ∈ [jsonType, formType], type.toList.length ≤ ContentType.maxLength ∧
      ';' ∉ type.toList ∧ Text.lowerCase (Text.trim type.toList) = type.toList := by
    decide +kernel
  obtain ⟨hlen, hplain, hname⟩ := hname r.contentType (by simpa using h)
  rw [Request.header, ContentType.read_of_plain hlen hplain, hname]

theorem payload_of_header {t : ContentType} (h : r.header = .ok t) :
    r.payload server = r.fields? server t := by
  rw [Request.payload, h]

theorem payload_unique {fields fields' : Fields}
    (h : r.payload server = .ok (some fields)) (h' : r.payload server = .ok (some fields')) :
    fields = fields' :=
  Option.some.inj (Except.ok.inj (h.symm.trans h'))

theorem exists_header_of_payload {payload : Option Fields} (h : r.payload server = .ok payload) :
    ∃ t, r.header = .ok t ∧ r.fields? server t = .ok payload := by
  unfold Request.payload at h
  cases ht : r.header with
  | error e => simp [ht] at h
  | ok t => exact ⟨t, rfl, by simpa [ht] using h⟩

theorem job_of_header {t : ContentType} (h : r.header = .ok t) :
    r.job server site = r.jobAs server site t := by
  rw [Request.job, h]

/-- A request with fields asks for what its fields ask for. -/
theorem job_of_fields {fields : Fields} (hpost : r.isPost = true)
    (h : r.payload server = .ok (some fields)) : r.job server site = jobOf site fields := by
  obtain ⟨t, ht, hfields⟩ := exists_header_of_payload h
  rw [job_of_header ht, Request.jobAs, if_pos hpost, hfields]

theorem textOf?_eq_some_iff {fields : Fields} {text : Phrase} :
    textOf? fields = some text ↔ fields.get? textField = some (.phrase text) := by
  unfold textOf?
  split
  · rename_i p hp
    simp [hp]
  · rename_i hp
    exact iff_of_false nofun fun h => hp text h

theorem overridesOf_ok {fields : Fields} {taskLists iconBullets : Option Bool}
    (ht : flagOf fields .taskLists = .ok taskLists)
    (hi : flagOf fields .iconBullets = .ok iconBullets) :
    overridesOf fields = .ok ⟨taskLists, iconBullets⟩ := by
  simp only [overridesOf, ht, hi]

/-- The first flag that cannot be read is refused. -/
theorem overridesOf_error {fields : Fields} {f : Feature} {e : BadFlag}
    (hearlier : f = .iconBullets → ∃ o, flagOf fields .taskLists = .ok o)
    (h : flagOf fields f = .error e) : overridesOf fields = .error e := by
  cases f with
  | taskLists => simp only [overridesOf, h]
  | iconBullets =>
    obtain ⟨o, ho⟩ := hearlier rfl
    simp only [overridesOf, ho, h]

theorem jobOf_ok {fields : Fields} {text : Phrase} {s : Settings} {o : FeatureOverrides}
    (ht : textOf? fields = some text) (hs : Settings.ofOptions site = .ok s)
    (ho : overridesOf fields = .ok o) : jobOf site fields = .ok ⟨text, s.withFeatures o⟩ := by
  simp only [jobOf, ht, hs, ho]

theorem jobOf_of_no_text {fields : Fields} (ht : textOf? fields = none) :
    jobOf site fields = .error (.refusal .noText) := by
  simp only [jobOf, ht]

theorem jobOf_of_bad_options {fields : Fields} {text : Phrase} {e : OptionError}
    (ht : textOf? fields = some text) (hs : Settings.ofOptions site = .error e) :
    jobOf site fields = .error (.options e) := by
  simp only [jobOf, ht, hs]

theorem jobOf_of_bad_flag {fields : Fields} {text : Phrase} {s : Settings} {e : BadFlag}
    (ht : textOf? fields = some text) (hs : Settings.ofOptions site = .ok s)
    (ho : overridesOf fields = .error e) :
    jobOf site fields = .error (.refusal (.badFlag e)) := by
  simp only [jobOf, ht, hs, ho]

/-! ## Requests that pass -/

/-- A request that passes is a job of its text, whatever its flags are. -/
theorem job_of_passes (h : r.Passes server site) : ∃ fields text s o,
    r.payload server = .ok (some fields) ∧ fields.get? textField = some (.phrase text) ∧
      Settings.ofOptions site = .ok s ∧ r.job server site = .ok ⟨text, s.withFeatures o⟩ := by
  have hpost : r.isPost = true := h .method (by decide)
  obtain ⟨fields, text, hpayload, htext⟩ := h .text (by decide)
  obtain ⟨s, hs⟩ := h .options (by decide)
  have hflag : ∀ f, ∃ o, flagOf fields f = .ok o := by
    intro f
    obtain ⟨fields', hpayload', hf⟩ := h (.flag f) (Check.mem_inOrder _)
    obtain rfl := payload_unique hpayload hpayload'
    exact (flagOf_ok_iff fields f).2 hf
  obtain ⟨taskLists, ht⟩ := hflag .taskLists
  obtain ⟨iconBullets, hi⟩ := hflag .iconBullets
  refine ⟨fields, text, s, ⟨taskLists, iconBullets⟩, hpayload, htext, hs, ?_⟩
  rw [job_of_fields hpost hpayload]
  exact jobOf_ok (textOf?_eq_some_iff.2 htext) hs (overridesOf_ok ht hi)

/-! ## Requests that fail a check -/

/-- If a flag decides, it is the one that cannot be read. -/
theorem job_of_bad_flag {f : Feature} (h : (Check.flag f).Decides server site r) :
    ∃ fields v, r.payload server = .ok (some fields) ∧ fields.get? f.name = some v ∧
      r.job server site = .error (.refusal (.badFlag ⟨asWord v⟩)) := by
  have hin : ∀ k ∈ [Check.method, .text, .options], k ∈ (Check.flag f).earlier := by
    cases f <;> decide
  have hpost : r.isPost = true := h.earlier .method (hin _ (by decide))
  obtain ⟨fields, text, hp, hget⟩ := h.earlier .text (hin _ (by decide))
  obtain ⟨s, hs⟩ := h.earlier .options (hin _ (by decide))
  obtain ⟨v, hv, hflag⟩ := flagOf_error fun hf => h.fails ⟨fields, hp, hf⟩
  have hfirst : f = .iconBullets → ∃ o, flagOf fields .taskLists = .ok o := by
    rintro rfl
    obtain ⟨fields', hp', hf⟩ := h.earlier (.flag .taskLists) (by decide)
    obtain rfl := payload_unique hp hp'
    exact (flagOf_ok_iff fields .taskLists).2 hf
  refine ⟨fields, v, hp, hv, ?_⟩
  rw [job_of_fields hpost hp]
  exact jobOf_of_bad_flag (textOf?_eq_some_iff.2 hget) hs (overridesOf_error hfirst hflag)

/-- A request that fails a check is refused by the first one, and nothing runs. -/
theorem respond_of_decides {check : Check} (hr : r.Readable server)
    (h : check.Decides server site r) (e : Endpoint) (c : Converter) :
    check.Refuses server site r (e.respond server site c r) := by
  obtain ⟨t, ht, hbody⟩ := hr
  obtain ⟨hearlier, hfails⟩ := h
  cases check with
  | method =>
    have hpost : ¬r.isPost = true := hfails
    have hjob : r.job server site = .error (.refusal .wrongMethod) := by
      rw [job_of_header ht, Request.jobAs, if_neg hpost]
    exact respond_of_refusal hjob e c
  | object =>
    have hpost : r.isPost = true := hearlier .method (by decide)
    obtain ⟨payload, hp⟩ := hbody hpost
    have hjob : r.job server site = .error (.refusal .notAnObject) := by
      cases payload with
      | none => rw [job_of_header ht, Request.jobAs, if_pos hpost, hp]
      | some fields => exact absurd ⟨fields, (payload_of_header ht).trans hp⟩ hfails
    exact respond_of_refusal hjob e c
  | text =>
    have hpost : r.isPost = true := hearlier .method (by decide)
    obtain ⟨fields, hp⟩ := hearlier .object (by decide)
    have htext : textOf? fields = none := by
      refine Option.eq_none_iff_forall_ne_some.2 fun text he => hfails ?_
      exact ⟨fields, text, hp, textOf?_eq_some_iff.1 he⟩
    have hjob : r.job server site = .error (.refusal .noText) := by
      rw [job_of_fields hpost hp, jobOf_of_no_text htext]
    exact respond_of_refusal hjob e c
  | options =>
    have hpost : r.isPost = true := hearlier .method (by decide)
    obtain ⟨fields, text, hp, hget⟩ := hearlier .text (by decide)
    cases hs : Settings.ofOptions site with
    | ok s => exact absurd ⟨s, hs⟩ hfails
    | error why =>
      have hjob : r.job server site = .error (.options why) := by
        rw [job_of_fields hpost hp]
        exact jobOf_of_bad_options (textOf?_eq_some_iff.2 hget) hs
      exact ⟨why, hs, respond_of_options hjob e c⟩
  | flag f =>
    obtain ⟨fields, v, hp, hv, hjob⟩ := job_of_bad_flag ⟨hearlier, hfails⟩
    exact ⟨fields, v, hp, hv, respond_of_refusal hjob e c⟩

/-- A check that refuses a request does so before anything runs. -/
theorem runsFor_of_refuses {check : Check} {answer : Except Failure Exchange}
    (h : check.Refuses server site r answer) : runsFor answer = [] := by
  cases check with
  | options =>
    obtain ⟨_, -, rfl⟩ := h
    rfl
  | flag f =>
    obtain ⟨_, _, -, -, rfl⟩ := h
    rfl
  | _ =>
    cases h
    rfl

/-! ## Requests that cannot be read -/

theorem respond_of_unreadable_header {why : HeaderError} (h : r.header = .error why) (e : Endpoint)
    (c : Converter) : e.respond server site c r = .error (.unreadable (.header why)) := by
  have hjob : r.job server site = .error (.unreadable (.header why)) := by
    rw [Request.job, h]
  exact respond_of_unreadable hjob e c

theorem respond_of_unreadable_body {t : ContentType} {why : Unreadable} (ht : r.header = .ok t)
    (hpost : r.isPost = true) (h : r.fields? server t = .error why) (e : Endpoint)
    (c : Converter) : e.respond server site c r = .error (.unreadable why) := by
  have hjob : r.job server site = .error (.unreadable why) := by
    rw [job_of_header ht, Request.jobAs, if_pos hpost, h]
  exact respond_of_unreadable hjob e c

/-- What cannot be read is given up. -/
theorem respond_of_not_readable (h : ¬r.Readable server) (e : Endpoint) (c : Converter) :
    ∃ why, e.respond server site c r = .error (.unreadable why) := by
  cases ht : r.header with
  | error why => exact ⟨_, respond_of_unreadable_header ht e c⟩
  | ok t =>
    by_cases hpost : r.isPost = true
    · cases hp : r.fields? server t with
      | error why => exact ⟨why, respond_of_unreadable_body ht hpost hp e c⟩
      | ok payload => exact absurd ⟨t, ht, fun _ => ⟨payload, hp⟩⟩ h
    · exact absurd ⟨t, ht, fun hp => absurd hp hpost⟩ h

/-- Only what can be read is answered. -/
theorem readable_of_respond {e : Endpoint} {c : Converter} {x : Exchange}
    (h : e.respond server site c r = .ok x) : r.Readable server := by
  by_contra hr
  obtain ⟨why, hwhy⟩ := respond_of_not_readable hr e c
  cases hwhy.symm.trans h

/-- If anything runs, the request has passed. -/
theorem passes_of_run {e : Endpoint} {c : Converter}
    (hrun : runsFor (e.respond server site c r) ≠ []) : r.Passes server site := by
  refine (passes_or_decides server site r).resolve_right ?_
  rintro ⟨check, hd⟩
  by_cases hr : r.Readable server
  · exact hrun (runsFor_of_refuses (respond_of_decides hr hd e c))
  · have hgiven : ∃ why, e.respond server site c r = .error (.unreadable why) :=
      respond_of_not_readable hr e c
    obtain ⟨why, hwhy⟩ := hgiven
    exact hrun (by rw [hwhy]; rfl)

/-! ## Answers -/

/-- What a converter reads in the runs for a text: nothing if it is missing. -/
def inputsOf (text : Phrase) : Converter → List Phrase
  | .missing _ => []
  | _ => [text]

theorem inputs_convert (plan : Plan) (c : Converter) (text : Phrase) :
    (convert plan c text).1.map Invocation.input = inputsOf text c := by
  unfold convert
  cases text.asString <;> cases c <;> rfl

theorem status_present {e : Endpoint} {s : Settings} {p : Preview} {x : Response}
    (h : e.present s p = .ok x) : x.status = 200 := by
  cases e with
  | render =>
    cases h
    rfl
  | document =>
    rw [Endpoint.present] at h
    cases hpage : sentPage s p with
    | error why => cases hpage ▸ h
    | ok page =>
      obtain rfl := Except.ok.inj (hpage ▸ h)
      rfl

theorem sentPage_ok_iff (s : Settings) (p : Preview) :
    (∃ page, sentPage s p = .ok page) ↔ Page.Writable s := by
  have hplain := Page.document_plain_iff p s (.plain Page.defaultTitle)
  rw [and_iff_left (Phrase.isPlain_plain _)] at hplain
  rw [← hplain]
  unfold sentPage
  cases Page.document p s with
  | error why => simp
  | ok page =>
    cases page with
    | plain t => simp
    | broken ps h =>
      obtain ⟨e, he⟩ := Phrase.asString_broken h
      simp [he]

/-- There is an answer that shows a preview, unless it would be a page that cannot be sent. -/
theorem present_ok_iff (e : Endpoint) (s : Settings) (p : Preview) :
    (∃ x, e.present s p = .ok x) ↔ (e = .document → Page.Writable s) := by
  cases e with
  | render => exact iff_of_true ⟨_, rfl⟩ nofun
  | document =>
    rw [← sentPage_ok_iff s p, Endpoint.present]
    cases sentPage s p <;> simp [Except.map]

/-- The time limits that a site can set are numbers of the format. -/
def LimitFits (site : Option Value) : Prop :=
  ∀ s, Settings.ofOptions site = .ok s →
    ∀ limit : Int, s.parsingTimeout = .whole limit → limit < 2 ^ 1024 - 2 ^ 970

/-- What becomes of a request for a text that passes every check, under the settings `s`. -/
structure Performed (e : Endpoint) (s : Settings) (c : Converter) (text : Phrase)
    (answer : Except Failure Exchange) : Prop where
  /-- The converter reads exactly the text, unless it is missing. -/
  inputs : (runsFor answer).map Invocation.input = inputsOf text c
  /-- What the converter answers is shown, be it an output or a message. -/
  answered : c.Answers text → (e = .document → Page.Writable s) →
    ∃ x, answer = .ok x ∧ x.response.status = 200
  /-- Without an answer of the converter the request is given up. -/
  aborted : ¬c.Answers text → ∃ run why, answer = .error (.fault (.aborted run why))
  /-- So it is if there is no page that could be sent. -/
  unsent : c.Answers text → ¬(e = .document → Page.Writable s) →
    ∃ why runs, answer = .error (.page why runs)

/-- A job with a plan is done. -/
theorem performed_of_plan (job : Job) {plan : Plan} (hp : Plan.of? job.settings = some plan)
    (e : Endpoint) (c : Converter) :
    Performed e job.settings c job.text (e.perform c job) where
  inputs := by
    rw [runsFor_perform, render, runsMade_of_plan (u := .of job.settings) hp, inputs_convert]
  answered ha hpage := by
    obtain ⟨y, hy, -⟩ := concludes_of_plan hp ha none
    obtain ⟨x, hx⟩ := (present_ok_iff e job.settings y.preview).2 hpage
    exact ⟨⟨x, y.runs⟩, perform_of_present hy hx, status_present hx⟩
  aborted ha := by
    obtain ⟨why, hy⟩ := render_of_no_answer hp none ha
    exact ⟨plan.invocation job.text, why, perform_of_fault hy⟩
  unsent ha hpage := by
    obtain ⟨y, hy, -⟩ := concludes_of_plan hp ha none
    rw [← present_ok_iff e job.settings y.preview] at hpage
    cases hx : e.present job.settings y.preview with
    | ok x => exact absurd ⟨x, hx⟩ hpage
    | error why => exact ⟨why, y.runs, perform_of_no_page hy hx⟩

/-- The features do not matter to the page. -/
theorem writable_withFeatures (s : Settings) (o : FeatureOverrides) :
    Page.Writable (s.withFeatures o) ↔ Page.Writable s :=
  ⟨fun h => ⟨h.width, h.css⟩, fun h => ⟨h.width, h.css⟩⟩

/-- A request that passes is performed. -/
theorem respond_of_passes (hl : LimitFits site) (h : r.Passes server site) (e : Endpoint)
    (c : Converter) : ∃ fields text s, r.payload server = .ok (some fields) ∧
      fields.get? textField = some (.phrase text) ∧ Settings.ofOptions site = .ok s ∧
      Performed e s c text (e.respond server site c r) := by
  obtain ⟨fields, text, s, o, hpayload, htext, hs, hjob⟩ := job_of_passes h
  refine ⟨fields, text, s, hpayload, htext, hs, ?_⟩
  -- a flag changes neither the time limit nor what is accepted
  obtain ⟨plan, hplan⟩ := exists_plan (Settings.accepted_ofOptions hs) (hl s hs)
  have hp := performed_of_plan ⟨text, s.withFeatures o⟩ ((plan_withFeatures s o).trans hplan) e c
  rw [respond_of_job hjob]
  exact
    { inputs := hp.inputs
      answered := fun ha hpage =>
        hp.answered ha fun he => (writable_withFeatures s o).2 (hpage he)
      aborted := hp.aborted
      unsent := fun ha hpage => hp.unsent ha fun hw =>
        hpage fun he => (writable_withFeatures s o).1 (hw he) }

end

/-- The outcome that the checks decide: the request passes, or is refused by the first check that
fails. -/
def DecidedInOrder (e : Endpoint) (server : Server) (site : Option Value) (c : Converter)
    (r : Request) : Prop :=
  r.Passes server site ∨ ∃ check : Check, check.Decides server site r ∧
    check.Refuses server site r (e.respond server site c r)

/-- The converter runs once at most, and only for requests that pass every check. Such a request is
performed: the converter reads exactly the text unless it is missing, and its answer is shown with
status 200, unless that takes a page that cannot be sent. Any other request that can be read is
refused by the first check that it fails. One that cannot be read is given up for that reason. -/
theorem checked_before_run {site : Option Value} (hl : LimitFits site) (server : Server)
    (e : Endpoint) (c : Converter) (r : Request) :
    (runsFor (e.respond server site c r)).length ≤ 1 ∧
    (runsFor (e.respond server site c r) ≠ [] → r.Passes server site) ∧
    (r.Passes server site → ∀ fields text s, r.payload server = .ok (some fields) →
      fields.get? textField = some (.phrase text) → Settings.ofOptions site = .ok s →
        Performed e s c text (e.respond server site c r)) ∧
    (r.Readable server → DecidedInOrder e server site c r) ∧
    (∀ why, r.header = .error why →
      e.respond server site c r = .error (.unreadable (.header why))) ∧
    ∀ t why, r.header = .ok t → r.isPost = true → r.fields? server t = .error why →
      (∀ k, why ≠ .tooDeep k) → e.respond server site c r = .error (.unreadable why) := by
  refine ⟨runsFor_respond_le_one e server site c r, passes_of_run, ?_, fun h => ?_,
    fun why h => respond_of_unreadable_header h e c,
    fun t why ht hpost h _ => respond_of_unreadable_body ht hpost h e c⟩
  · intro h fields text s hp hget hs
    obtain ⟨fields', text', s', hp', hget', hs', hperformed⟩ := respond_of_passes hl h e c
    obtain rfl := payload_unique hp hp'
    obtain rfl : text = text' := Value.phrase.inj (Option.some.inj (hget.symm.trans hget'))
    obtain rfl := Except.ok.inj (hs.symm.trans hs')
    exact hperformed
  · exact (passes_or_decides server site r).imp_right
      fun ⟨check, hd⟩ => ⟨check, hd, respond_of_decides h hd e c⟩

theorem limitFits_none : LimitFits none := by
  intro s hs limit h
  cases hs
  cases h
  decide +kernel

theorem isPost_post (type : String) (body : List UInt8) :
    Request.isPost ⟨"POST", type, body⟩ = true := by
  have h : "POST".toList.flatMap methodLetters = ['p', 'o', 's', 't'] := by decide
  exact decide_eq_true h

/-- A server that knows no forms in parts. -/
def plainServer : Server where
  depth := 100
  readParts _ := .error "Invalid boundary in multipart: None"

def jsonPost (body : String) : Request where
  method := "POST"
  contentType := "application/json"
  body := body.toUTF8.toList

theorem payload_jsonPost {body : String} (hl : body.toUTF8.toList.length ≤ Request.maxBody)
    (server : Server) :
    (jsonPost body).payload server = Request.jsonFields? server body.toUTF8.toList := by
  have hheader : (jsonPost body).header = .ok { name := jsonType.toList } :=
    header_of_name (.inl rfl)
  rw [payload_of_header hheader]
  exact if_neg (Nat.not_lt.2 hl)

/-- A text that the converter takes too long for. -/
theorem checked_before_run_text :
    LimitFits none ∧ ∃ x,
      Endpoint.render.respond plainServer none .tooSlow
        (jsonPost "\x7b\"markdown\": \"a\"\x7d") = .ok x ∧
      x.response.status = 200 ∧ x.runs.map Invocation.input = [.plain "a"] := by
  have hp : (jsonPost "\x7b\"markdown\": \"a\"\x7d").payload plainServer =
      .ok (some [(.plain "markdown", .text "a")]) :=
    (payload_jsonPost (by decide +kernel) plainServer).trans
      (by with_unfolding_all rfl)
  have hpasses : (jsonPost "\x7b\"markdown\": \"a\"\x7d").Passes plainServer none := by
    intro check _
    cases check with
    | method => exact isPost_post ..
    | object => exact ⟨_, hp⟩
    | text => exact ⟨_, _, hp, rfl⟩
    | options => exact ⟨_, Settings.ofOptions_none⟩
    | flag f => exact ⟨_, hp, by cases f <;> trivial⟩
  have hperformed := (checked_before_run limitFits_none plainServer .render .tooSlow _).2.2.1
    hpasses _ (.plain "a") _ hp rfl Settings.ofOptions_none
  obtain ⟨x, hx, hstatus⟩ := hperformed.answered (Phrase.isPlain_plain "a") nofun
  have hinputs := hperformed.inputs
  rw [hx] at hinputs
  exact ⟨limitFits_none, x, hx, hstatus, hinputs⟩

/-- A form that is not in UTF-8. -/
def latinForm : Request where
  method := "POST"
  contentType := "application/x-www-form-urlencoded; charset=latin-1"
  body := "markdown=a".toUTF8.toList

theorem header_latinForm :
    latinForm.header = .ok ⟨formType.toList, some "latin-1".toList⟩ := by
  exact eq_ok_of_toOption (by decide +kernel)

/-- A form in a foreign charset is given up, though its method is served and its text is there: it
neither passes nor is refused by a check. -/
theorem not_decidedInOrder :
    latinForm.isPost = true ∧
    Endpoint.render.respond plainServer none (.finished "" none 0) latinForm =
      .error (.unreadable .foreignForm) ∧
    ¬DecidedInOrder .render plainServer none (.finished "" none 0) latinForm := by
  have hfields : latinForm.fields? plainServer ⟨formType.toList, some "latin-1".toList⟩ =
      .error .foreignForm :=
    Request.fields?_of_foreign_form (by decide) rfl (by decide)
  have hanswer : Endpoint.render.respond plainServer none (.finished "" none 0) latinForm =
      .error (.unreadable .foreignForm) :=
    respond_of_unreadable_body header_latinForm (isPost_post ..) hfields .render _
  refine ⟨isPost_post .., hanswer, ?_⟩
  rintro (hpasses | ⟨check, -, hrefuses⟩)
  · obtain ⟨fields, hp⟩ := hpasses .object (by decide)
    rw [payload_of_header header_latinForm, hfields] at hp
    cases hp
  · rw [hanswer] at hrefuses
    exact Check.not_refuses_unreadable _ check hrefuses

end MarkdownPreview.Web
