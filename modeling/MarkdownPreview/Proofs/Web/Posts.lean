import Mathlib.Data.List.Perm.Basic
import MarkdownPreview.Proofs.Web.Checks
import MarkdownPreview.Proofs.Web.FormSpelled

/-!
# Posting a text

A text and a word for each feature may be posted as a JSON object or as a form. Each format has its
own ways to spell a text, and what is read comes to the same: a request `Brings` the text and the
words, and everything else follows from that. Only the size of a body is checked before it is read,
and the two formats need not be equally long for one text.

* `get?_posted`: a body that posts them brings the text and the words.
* `JsonPost.brings`, `FormPost.brings`: what each format brings.
* `JsonPost.givenUp`, `FormPost.givenUp`: a body that is too large brings nothing.
* `respond_of_brings`: requests that bring the same are answered alike.
* `posts_agree`: both formats are answered alike, unless a body is too large.
-/
namespace MarkdownPreview.Web

open Json (Value Fields fieldsOf get?_of_perm)
open Text (Spelled)

/-! ## What is posted -/

/-- The fields that post a text and a value for each feature, where there is one. -/
def posted (text : String) (taskLists iconBullets : Option Value) : List (String × Value) :=
  (textField, .text text) ::
    ((taskLists.map (Feature.taskLists.name, ·)).toList ++
      (iconBullets.map (Feature.iconBullets.name, ·)).toList)

/-- The values of fields of texts. -/
def asValues (fs : List (String × String)) : List (String × Value) :=
  fs.map fun f => (f.1, .text f.2)

/-- A JSON object that is posted. -/
structure JsonPost (fs : List (String × Value)) (r : Request) : Prop where
  method : r.method = "POST"
  contentType : r.contentType = jsonType
  body : ∃ w, Json.SpellsObject fs w ∧ r.body = Text.Utf8.encode w

/-- A form that is posted. -/
structure FormPost (fs : List (String × String)) (r : Request) : Prop where
  method : r.method = "POST"
  contentType : r.contentType = formType
  body : ∃ w, Form.SpellsForm fs w ∧ r.body = Text.Utf8.encode w

/-- A request that is served brings a text and a value for each feature, where there is one. -/
def Request.Brings (server : Server) (r : Request) (text : String)
    (taskLists iconBullets : Option Value) : Prop :=
  r.isPost = true ∧ ∃ fields, r.payload server = .ok (some fields) ∧
    fields.get? textField = some (.text text) ∧
    fields.get? Feature.taskLists.name = taskLists ∧
    fields.get? Feature.iconBullets.name = iconBullets

/-! ## Fields -/

theorem nodup_posted (text : String) (t i : Option Value) :
    ((posted text t i).map Prod.fst).Nodup := by
  cases t <;> cases i <;> simp [posted, textField, Feature.name]

theorem length_posted_le (text : String) (t i : Option Value) :
    (posted text t i).length ≤ Request.maxFields := by
  have hmax : Request.maxFields = 1000 := rfl
  cases t <;> cases i <;> simp [posted, hmax]

/-- The fields that are posted are found under their names, in whatever order they come. -/
theorem get?_posted {text : String} {t i : Option Value} {fs : List (String × Value)}
    (h : fs.Perm (posted text t i)) :
    (fieldsOf fs).get? textField = some (.text text) ∧
      (fieldsOf fs).get? Feature.taskLists.name = t ∧
      (fieldsOf fs).get? Feature.iconBullets.name = i := by
  have hget : ∀ key v, (fieldsOf fs).get? key = some v ↔ (key, v) ∈ posted text t i :=
    fun _ _ => get?_of_perm h (nodup_posted text t i)
  refine ⟨(hget _ _).2 List.mem_cons_self, ?_, ?_⟩
  · ext v
    rw [hget]
    cases t <;> cases i <;> simp [posted, textField, Feature.name, eq_comm]
  · ext v
    rw [hget]
    cases t <;> cases i <;> simp [posted, textField, Feature.name, eq_comm]

/-! ## Requests -/

/-- A text that is not empty has octets. -/
theorem encode_ne_nil {c : Char} {w : List Char} : Text.Utf8.encode (c :: w) ≠ [] := by
  intro h
  have hread := Text.Utf8.decode?_encode (c :: w)
  rw [h] at hread
  cases hread

section

variable {fs : List (String × Value)} {r : Request}

theorem JsonPost.isPost (h : JsonPost fs r) : r.isPost = true := by
  obtain ⟨method, type, body⟩ := r
  obtain rfl : method = "POST" := h.method
  exact isPost_post type body

/-- A JSON body brings its fields, unless it is too large. -/
theorem JsonPost.payload (h : JsonPost fs r) (server : Server) : r.payload server =
    if Request.maxBody < r.body.length then .error .tooLarge else .ok (some (fieldsOf fs)) := by
  obtain ⟨w, hw, hbody⟩ := h.body
  obtain ⟨c, s, rfl, -⟩ := hw.cons_eq
  have hne : r.body ≠ [] := hbody ▸ encode_ne_nil
  have hformat : BodyFormat.ofName jsonType.toList = .json := by decide
  have hread : Request.jsonFields? server r.body = .ok (some (fieldsOf fs)) := by
    have hbytes : Json.readBytes (server.depth + 1) r.body = .ok (.object (fieldsOf fs)) := by
      rw [hbody]
      exact Json.readBytes_spelled hw _
    rw [Request.jsonFields?, if_neg (by simpa using hne), hbytes]
  rw [payload_of_header (header_of_name (.inl h.contentType)), Request.fields?, h.contentType]
  simp only [hformat, hread]

end

section

variable {fs : List (String × String)} {r : Request}

theorem FormPost.isPost (h : FormPost fs r) : r.isPost = true := by
  obtain ⟨method, type, body⟩ := r
  obtain rfl : method = "POST" := h.method
  exact isPost_post type body

/-- A form brings its fields, unless it is too large. -/
theorem FormPost.payload (h : FormPost fs r) (hcount : fs.length ≤ Request.maxFields)
    (server : Server) : r.payload server = if Request.maxBody < r.body.length then .error .tooLarge
      else .ok (some (fieldsOf (asValues fs))) := by
  obtain ⟨w, hw, hbody⟩ := h.body
  have hformat : BodyFormat.ofName formType.toList = .form := by decide
  have hread : Request.formFields r.body = .ok (fieldsOf (asValues fs)) := by
    rw [Request.formFields, hbody, Form.count_spelled hw, if_neg (Nat.not_lt.2 hcount),
      Form.fields_spelled hw, asValues]
  rw [payload_of_header (header_of_name (.inr h.contentType)), Request.fields?, h.contentType]
  simp [hformat, hread, Except.map]

end

/-! ## What requests bring -/

section

variable {text : String} {t i : Option Value} {r : Request} (server : Server)

/-- A JSON body brings its fields, unless it is too large. -/
theorem JsonPost.brings {fs : List (String × Value)} (h : JsonPost fs r)
    (hfs : fs.Perm (posted text t i)) (hsize : r.body.length ≤ Request.maxBody) :
    r.Brings server text t i := by
  obtain ⟨htext, ht, hi⟩ := get?_posted hfs
  refine ⟨h.isPost, fieldsOf fs, ?_, htext, ht, hi⟩
  rw [h.payload, if_neg (Nat.not_lt.2 hsize)]

theorem length_le_of_perm {fs : List (String × String)} (h : (asValues fs).Perm (posted text t i)) :
    fs.length ≤ Request.maxFields := by
  have hlen : fs.length = (posted text t i).length := by
    rw [← h.length_eq, asValues, List.length_map]
  exact hlen ▸ length_posted_le text t i

/-- A form brings its fields, unless it is too large. -/
theorem FormPost.brings {fs : List (String × String)} (h : FormPost fs r)
    (hfs : (asValues fs).Perm (posted text t i)) (hsize : r.body.length ≤ Request.maxBody) :
    r.Brings server text t i := by
  obtain ⟨htext, ht, hi⟩ := get?_posted hfs
  refine ⟨h.isPost, fieldsOf (asValues fs), ?_, htext, ht, hi⟩
  rw [h.payload (length_le_of_perm hfs), if_neg (Nat.not_lt.2 hsize)]

/-- Only three fields of a request are looked at. -/
theorem jobOf_congr {fields fields' : Fields}
    (htext : fields.get? textField = fields'.get? textField)
    (hflag : ∀ f : Feature, fields.get? f.name = fields'.get? f.name) (site : Option Value) :
    jobOf site fields = jobOf site fields' := by
  simp only [jobOf, textOf?, overridesOf, flagOf, htext, hflag]

theorem respond_congr {r r' : Request} {site : Option Value}
    (h : r.job server site = r'.job server site) (e : Endpoint) (c : Converter) :
    e.respond server site c r = e.respond server site c r' := by
  rw [Endpoint.respond, Endpoint.respond, h]

/-- Requests that bring the same are answered alike. -/
theorem respond_of_brings {r' : Request} (h : r.Brings server text t i)
    (h' : r'.Brings server text t i) (e : Endpoint) (site : Option Value) (c : Converter) :
    e.respond server site c r = e.respond server site c r' := by
  obtain ⟨hpost, fields, hp, htext, ht, hi⟩ := h
  obtain ⟨hpost', fields', hp', htext', ht', hi'⟩ := h'
  refine respond_congr server ?_ e c
  rw [job_of_fields hpost hp, job_of_fields hpost' hp']
  refine jobOf_congr (htext.trans htext'.symm) (fun f => ?_) site
  cases f with
  | taskLists => exact ht.trans ht'.symm
  | iconBullets => exact hi.trans hi'.symm

/-- A body that is too large is given up before it is read. -/
theorem respond_of_tooLarge (hpost : r.isPost = true) (h : r.payload server = .error .tooLarge)
    (e : Endpoint) (site : Option Value) (c : Converter) :
    e.respond server site c r = .error (.unreadable .tooLarge) := by
  unfold Request.payload at h
  cases ht : r.header with
  | error why => simp [ht] at h
  | ok type => exact respond_of_unreadable_body ht hpost (by simpa [ht] using h) e c

theorem JsonPost.givenUp {fs : List (String × Value)} (h : JsonPost fs r)
    (hlarge : Request.maxBody < r.body.length) (e : Endpoint) (site : Option Value)
    (c : Converter) : e.respond server site c r = .error (.unreadable .tooLarge) := by
  refine respond_of_tooLarge server h.isPost ?_ e site c
  rw [h.payload, if_pos hlarge]

theorem FormPost.givenUp {fs : List (String × String)} (h : FormPost fs r)
    (hfs : (asValues fs).Perm (posted text t i)) (hlarge : Request.maxBody < r.body.length)
    (e : Endpoint) (site : Option Value) (c : Converter) :
    e.respond server site c r = .error (.unreadable .tooLarge) := by
  refine respond_of_tooLarge server h.isPost ?_ e site c
  rw [h.payload (length_le_of_perm hfs), if_pos hlarge]

end

/-- A text and a word for each feature are posted in either format, in any order and spelling. If
both bodies are small enough, they bring the same and are answered alike; a body that is too large
is given up, whatever its format. -/
theorem posts_agree {text : String} {t i : Option String} {fs : List (String × Value)}
    {fs' : List (String × String)} {r r' : Request}
    (hfs : fs.Perm (posted text (t.map .text) (i.map .text)))
    (hfs' : (asValues fs').Perm (posted text (t.map .text) (i.map .text)))
    (hr : JsonPost fs r) (hr' : FormPost fs' r') (e : Endpoint) (server : Server)
    (site : Option Value) (c : Converter) :
    (r.body.length ≤ Request.maxBody → r'.body.length ≤ Request.maxBody →
      r.Brings server text (t.map .text) (i.map .text) ∧
      r'.Brings server text (t.map .text) (i.map .text) ∧
      e.respond server site c r = e.respond server site c r') ∧
    (Request.maxBody < r.body.length →
      e.respond server site c r = .error (.unreadable .tooLarge)) ∧
    (Request.maxBody < r'.body.length →
      e.respond server site c r' = .error (.unreadable .tooLarge)) := by
  refine ⟨fun hsize hsize' => ?_, fun hlarge => hr.givenUp server hlarge e site c,
    fun hlarge => hr'.givenUp server hfs' hlarge e site c⟩
  have hbrings := hr.brings server hfs hsize
  have hbrings' := hr'.brings server hfs' hsize'
  exact ⟨hbrings, hbrings', respond_of_brings server hbrings hbrings' e site c⟩

def formPost (body : String) : Request where
  method := "POST"
  contentType := "application/x-www-form-urlencoded"
  body := body.toUTF8.toList

/-- A clef, written as a pair of surrogates in one body and by its octets in the other. -/
theorem posts_agree_clef :
    ∃ text r r', text = "a = b & 𝄞" ∧
      r = jsonPost "\x7b\"markdown\": \"a = b & \\ud834\\udd1e\", \"task_lists\": \"no\"\x7d" ∧
      r' = formPost "task_lists=no&markdown=a+%3d+b+%26+%f0%9d%84%9e" ∧
      r.Brings plainServer text (some (.text "no")) none ∧
      r'.Brings plainServer text (some (.text "no")) none ∧
      Endpoint.render.respond plainServer none .tooSlow r =
        Endpoint.render.respond plainServer none .tooSlow r' := by
  have hjson : Json.SpellsObject (posted "a = b & 𝄞" (some (.text "no")) none)
      "\x7b\"markdown\": \"a = b & \\ud834\\udd1e\", \"task_lists\": \"no\"\x7d".toList := by
    have h := Json.spellsObject_writeObject ("markdown", some "a = b & 𝄞")
      [("task_lists", some "no")]
    have hw : Json.writeObject [("markdown", some "a = b & 𝄞"), ("task_lists", some "no")] =
        "\x7b\"markdown\": \"a = b & \\ud834\\udd1e\", \"task_lists\": \"no\"\x7d" := by
      decide +kernel
    rwa [hw] at h
  have hform : Form.SpellsForm [("task_lists", "no"), ("markdown", "a = b & 𝄞")]
      "task_lists=no&markdown=a+%3d+b+%26+%f0%9d%84%9e".toList := by
    have h := Form.spellsForm_writeForm ("task_lists", "no") [("markdown", "a = b & 𝄞")]
    have hw : Form.writeForm [("task_lists", "no"), ("markdown", "a = b & 𝄞")] =
        "task_lists=no&markdown=a+%3d+b+%26+%f0%9d%84%9e".toList := by
      decide +kernel
    rwa [hw] at h
  have hr : JsonPost (posted "a = b & 𝄞" (some (.text "no")) none)
      (jsonPost "\x7b\"markdown\": \"a = b & \\ud834\\udd1e\", \"task_lists\": \"no\"\x7d") :=
    ⟨rfl, rfl, _, hjson, Text.Utf8.toList_toUTF8 _⟩
  have hr' : FormPost [("task_lists", "no"), ("markdown", "a = b & 𝄞")]
      (formPost "task_lists=no&markdown=a+%3d+b+%26+%f0%9d%84%9e") :=
    ⟨rfl, rfl, _, hform, Text.Utf8.toList_toUTF8 _⟩
  have horder : (asValues [("task_lists", "no"), ("markdown", "a = b & 𝄞")]).Perm
      (posted "a = b & 𝄞" (some (.text "no")) none) := .swap _ _ _
  have hagree := posts_agree (t := some "no") (i := none) (.refl _) horder hr hr' .render
    plainServer none .tooSlow
  exact ⟨_, _, _, rfl, rfl, rfl, hagree.1 (by decide +kernel) (by decide +kernel)⟩

/-! ## The limit -/

/-- A text of characters that a form cannot show as they are. -/
def ampersands (n : Nat) : List Char :=
  List.replicate n '&'

/-- A JSON body with such a text. -/
def ampersandObject (n : Nat) : Request where
  method := "POST"
  contentType := jsonType
  body := Text.Utf8.encode ("\x7b\"markdown\": \"".toList ++ ampersands n ++ "\"\x7d".toList)

/-- A form with such a text. -/
def ampersandForm (n : Nat) : Request where
  method := "POST"
  contentType := formType
  body := Text.Utf8.encode ("markdown=".toList ++ (ampersands n).flatMap fun _ => "%26".toList)

theorem ampersand_of_mem {n : Nat} {c : Char} (h : c ∈ ampersands n) : c = '&' :=
  List.eq_of_mem_replicate h

theorem jsonPost_ampersands (n : Nat) :
    JsonPost (posted (String.ofList (ampersands n)) none none) (ampersandObject n) := by
  have htext : Json.SpellsText (String.ofList (ampersands n)) ('"' :: ampersands n ++ ['"']) := by
    refine ⟨ampersands n, ?_, rfl⟩
    rw [String.toList_ofList]
    apply Text.spelled_self
    intro c hc
    rw [ampersand_of_mem hc]
    exact .itself (by decide) (by decide) (by decide)
  have hname : Json.SpellsText textField "\"markdown\"".toList := by
    refine ⟨textField.toList, Text.spelled_self ?_, rfl⟩
    intro c hc
    have hplain : ∀ c ∈ textField.toList, ' ' ≤ c ∧ c ≠ '"' ∧ c ≠ '\\' := by simp [textField]
    obtain ⟨hs, hq, hb⟩ := hplain c hc
    exact .itself hs hq hb
  have hobject := Json.SpellsObject.mk Json.gap_nil Json.gap_nil
    (.last (.mk hname Json.gap_nil Json.gap_space (.text htext)) Json.gap_nil) Json.gap_nil
  refine ⟨rfl, rfl, _, hobject, ?_⟩
  simp [ampersandObject]

theorem formPost_ampersands (n : Nat) :
    FormPost [(textField, String.ofList (ampersands n))] (ampersandForm n) := by
  have hform := Form.spellsForm_writeForm (textField, String.ofList (ampersands n)) []
  have hname : textField.toList.flatMap Form.writeChar = "markdown".toList := by decide
  have htext : (ampersands n).flatMap Form.writeChar =
      (ampersands n).flatMap fun _ => "%26".toList := by
    refine List.flatMap_congr fun c hc => ?_
    rw [ampersand_of_mem hc]
    decide
  refine ⟨rfl, rfl, _, hform, ?_⟩
  simp only [Form.writeForm, Form.writeField, hname, String.toList_ofList, htext]
  rfl

/-- A text without words passes every check, if nothing is set. -/
theorem passes_of_brings {server : Server} {r : Request} {text : String}
    (h : r.Brings server text none none) : r.Passes server none := by
  obtain ⟨hpost, fields, hp, htext, ht, hi⟩ := h
  intro check _
  cases check with
  | method => exact hpost
  | object => exact ⟨fields, hp⟩
  | text => exact ⟨fields, _, hp, htext⟩
  | options => exact ⟨_, Settings.ofOptions_none⟩
  | flag f =>
    refine ⟨fields, hp, ?_⟩
    cases f with
    | taskLists => rw [ht]; trivial
    | iconBullets => rw [hi]; trivial

/-- In a form such a text takes three octets for each character. -/
theorem length_ampersandForm (n : Nat) : (ampersandForm n).body.length = 3 * n + 9 := by
  have hascii : ∀ c ∈ "markdown=".toList ++ (ampersands n).flatMap fun _ => "%26".toList,
      c.toNat < 0x80 := by
    rw [List.forall_mem_append]
    refine ⟨by simp, fun c hc => ?_⟩
    obtain ⟨-, -, hc⟩ := List.mem_flatMap.1 hc
    have hall : ∀ c ∈ "%26".toList, c.toNat < 0x80 := by simp
    exact hall c hc
  rw [ampersandForm, Text.Utf8.length_encode_of_ascii hascii, List.length_append,
    List.length_flatMap]
  simp [ampersands]
  omega

theorem length_ampersandObject (n : Nat) : (ampersandObject n).body.length = n + 16 := by
  have hascii : ∀ c ∈ "\x7b\"markdown\": \"".toList ++ ampersands n ++ "\"\x7d".toList,
      c.toNat < 0x80 := by
    rw [List.forall_mem_append, List.forall_mem_append]
    refine ⟨⟨by simp, fun c hc => ?_⟩, by simp⟩
    rw [ampersand_of_mem hc]
    decide
  rw [ampersandObject, Text.Utf8.length_encode_of_ascii hascii]
  simp [ampersands]

/-- Of a text and no words, the two formats need not be answered alike: one body fits into the limit
and is answered, the other does not and is given up. -/
theorem posts_differ :
    JsonPost (posted (String.ofList (ampersands 873811)) none none) (ampersandObject 873811) ∧
    FormPost [(textField, String.ofList (ampersands 873811))] (ampersandForm 873811) ∧
    (∃ x, Endpoint.render.respond plainServer none (.missing "m") (ampersandObject 873811) = .ok x ∧
      x.response.status = 200) ∧
    Endpoint.render.respond plainServer none (.missing "m") (ampersandForm 873811) =
      .error (.unreadable .tooLarge) := by
  have hr := jsonPost_ampersands 873811
  have hr' := formPost_ampersands 873811
  have hsize : (ampersandObject 873811).body.length ≤ Request.maxBody := by
    rw [length_ampersandObject, Request.maxBody]
    omega
  have hlarge : Request.maxBody < (ampersandForm 873811).body.length := by
    rw [length_ampersandForm, Request.maxBody]
    omega
  refine ⟨hr, hr', ?_, ?_⟩
  · have hpasses := passes_of_brings (hr.brings plainServer (.refl _) hsize)
    obtain ⟨_, _, _, -, -, -, hperformed⟩ :=
      respond_of_passes limitFits_none hpasses .render (.missing "m")
    exact hperformed.answered trivial nofun
  · have hfs : (asValues [(textField, String.ofList (ampersands 873811))]).Perm
        (posted (String.ofList (ampersands 873811)) none none) := .refl _
    exact hr'.givenUp plainServer hfs hlarge .render none (.missing "m")

end MarkdownPreview.Web
