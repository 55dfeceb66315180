import MarkdownPreview.Proofs.Text.Angles
import MarkdownPreview.Proofs.Web.Checks

/-!
# Angle brackets in refusals

A refusal is served as a page. It quotes the word that a flag was read as, which leaves the angle
brackets in it as they are: the page holds one exactly if the value of the flag that decides has one
in a text of its own, or in a key. Numbers, and the other refusals, have none.

* `angle_mem_asWord_iff`: the word that a value is read as keeps the angle brackets of its texts.
* `angle_in_refusal_iff`: when a refusal holds an angle bracket.
-/
namespace MarkdownPreview.Web

open Json (Value Fields)
open Text (Point isAngle NoAngle)

/-! ## Words -/

/-- The word that a value is read as keeps the angle brackets of its texts. -/
theorem angle_mem_asWord_iff {a : Char} (ha : isAngle a = true) (v : Value) :
    .char a ∈ asWord v ↔ v.Mentions a := by
  rw [asWord, Text.angle_mem_lowerCase_iff ha, Text.angle_mem_trim_iff ha,
    Value.angle_mem_display_iff ha]

/-- The message about a flag holds the angle brackets of its value's texts. -/
theorem angle_mem_message_iff {a : Char} (ha : isAngle a = true) (v : Value) :
    a ∈ ("Not a boolean: " ++ String.ofList (Point.quoted (asWord v))).toList ↔ v.Mentions a := by
  have hlist : ("Not a boolean: " ++ String.ofList (Point.quoted (asWord v))).toList =
      "Not a boolean: ".toList ++ Point.quoted (asWord v) :=
    String.toList_append.trans (congrArg _ String.toList_ofList)
  have hstart : a ∉ "Not a boolean: ".toList :=
    (by decide : NoAngle "Not a boolean: ".toList).not_mem ha
  rw [hlist, List.mem_append, or_iff_right hstart, Text.angle_mem_quoted_iff ha,
    angle_mem_asWord_iff ha]

/-! ## Refusals -/

/-- What a job is answered has status 200. -/
theorem status_of_perform {e : Endpoint} {c : Converter} {job : Job} {x : Exchange}
    (h : e.perform c job = .ok x) : x.response.status = 200 := by
  unfold Endpoint.perform at h
  split at h
  · cases h
  · split at h
    · cases h
    · rename_i answer hanswer
      cases h
      exact status_present hanswer

theorem status_of_passes {server : Server} {site : Option Value} {r : Request}
    (h : r.Passes server site) {e : Endpoint} {c : Converter} {x : Exchange}
    (hx : e.respond server site c r = .ok x) : x.response.status = 200 := by
  obtain ⟨_, text, s, o, -, -, -, hjob⟩ := job_of_passes h
  rw [respond_of_job hjob] at hx
  exact status_of_perform hx

/-- The page that a request is refused with holds an angle bracket exactly if a flag decides and its
value mentions that bracket. -/
theorem angle_in_refusal_iff {e : Endpoint} {server : Server} {site : Option Value} {c : Converter}
    {r : Request} {x : Exchange} (h : e.respond server site c r = .ok x)
    (hs : x.response.status = 400) :
    x.response.contentType = pageType ∧ x.runs = [] ∧ ∀ a, isAngle a = true →
      (a ∈ x.response.body.toList ↔ ∃ f fields v, (Check.flag f).Decides server site r ∧
        r.payload server = .ok (some fields) ∧ fields.get? f.name = some v ∧ v.Mentions a) := by
  rcases passes_or_decides server site r with hpasses | ⟨check, hd⟩
  · rw [status_of_passes hpasses h] at hs
    cases hs
  have hrefuses := respond_of_decides (readable_of_respond h) hd e c
  rw [h] at hrefuses
  -- a message of fixed words, of a check that is about no flag
  have hfixed : ∀ body : String, NoAngle body.toList → (∀ f, check ≠ .flag f) →
      ∀ a, isAngle a = true → (a ∈ body.toList ↔
        ∃ f fields v, (Check.flag f).Decides server site r ∧ r.payload server = .ok (some fields) ∧
          fields.get? f.name = some v ∧ v.Mentions a) := by
    intro body hbody hne a ha
    refine iff_of_false (hbody.not_mem ha) ?_
    rintro ⟨f, _, _, hf, -⟩
    exact hne f (hd.unique hf)
  cases check with
  | method =>
    cases hrefuses
    cases hs
  | object =>
    cases hrefuses
    exact ⟨rfl, rfl, hfixed _ (by decide) nofun⟩
  | text =>
    cases hrefuses
    exact ⟨rfl, rfl, hfixed _ (by decide) nofun⟩
  | options =>
    obtain ⟨_, -, he⟩ := hrefuses
    cases he
  | flag f =>
    obtain ⟨fields, v, hp, hv, he⟩ := hrefuses
    cases he
    refine ⟨rfl, rfl, fun a ha => (angle_mem_message_iff ha v).trans ⟨fun hm => ?_, ?_⟩⟩
    · exact ⟨f, fields, v, hd, hp, hv, hm⟩
    · rintro ⟨f', fields', v', hf, hp', hv', hm⟩
      obtain rfl := Check.flag.inj (hd.unique hf)
      obtain rfl := payload_unique hp hp'
      obtain rfl := Option.some.inj (hv.symm.trans hv')
      exact hm

/-- A list of one text, which is no flag. -/
theorem angle_in_refusal_list :
    ∃ x, Endpoint.document.respond plainServer none .tooSlow
        (jsonPost "\x7b\"markdown\": \"\", \"icon_bullets\": [\"a > b\"]\x7d") = .ok x ∧
      x.response.status = 400 ∧ ∃ (f : Feature) (fields : Fields) (v : Value),
        (Check.flag f).Decides plainServer none
          (jsonPost "\x7b\"markdown\": \"\", \"icon_bullets\": [\"a > b\"]\x7d") ∧
        fields.get? f.name = some v ∧ v.Mentions '>' := by
  have hx : Endpoint.document.respond plainServer none .tooSlow
      (jsonPost "\x7b\"markdown\": \"\", \"icon_bullets\": [\"a > b\"]\x7d") =
        .ok ⟨{ status := 400, contentType := pageType,
               body := "Not a boolean: \"['a > b']\"" }, []⟩ :=
    eq_ok_of_toOption (by decide +kernel)
  obtain ⟨-, -, hbody⟩ := angle_in_refusal_iff hx rfl
  obtain ⟨f, fields, v, hf, -, hv, hm⟩ := (hbody '>' rfl).1 (by decide)
  exact ⟨_, hx, rfl, f, fields, v, hf, hv, hm⟩

/-- A tag in the place of a flag stands in the page as it was sent. -/
theorem tag_in_refusal :
    Endpoint.render.respond plainServer none (.finished "" none 0)
        (jsonPost "\x7b\"markdown\": \"x\", \"task_lists\": \"<b>\"\x7d") =
      .ok ⟨{ status := 400, contentType := "text/html; charset=utf-8",
             body := "Not a boolean: '<b>'" }, []⟩ ∧
    ¬NoAngle "Not a boolean: '<b>'".toList :=
  ⟨eq_ok_of_toOption (by decide +kernel), by decide⟩

end MarkdownPreview.Web
