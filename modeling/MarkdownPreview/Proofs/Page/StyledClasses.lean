import MarkdownPreview.Proofs.Markup.Replacements
import MarkdownPreview.Proofs.Markup.Strikethrough
import MarkdownPreview.Proofs.Page.PrintedRules
import MarkdownPreview.Proofs.Preview.Outcome

/-!
# The classes of a preview and the themes

A pass gives classes to rows, items, boxes, rules and struck text; the body around a preview has a
class of its own, and so has an error paragraph. Each of them is there for the stylesheet. The texts
that a pass puts in are made of few parts, whatever it has met before, so that it is enough to find
the classes of these parts in the themes.

* `classesIn_append`: a text that ends outside its tags has the classes of its parts.
* `styled_replace`, `styled_steps`: what a pass emits for a tag, and in a run over many.
* `every_class_styled`: the classes of a run, of the body and of any error paragraph.
-/
namespace MarkdownPreview.Page

open Markup
open Text (isAsciiBlank pieces)

/-! ## Classes in a text -/

/-- An element with one of its classes. -/
structure ElementClass where
  element : String
  cls : String
  deriving DecidableEq, Repr

def ElementClass.selector (x : ElementClass) : String :=
  x.element ++ "." ++ x.cls

/-- The values of the class attributes of a tag that is cut at its quotes, so that values follow
what stands before them. -/
def classValues : List (List Char) → List (List Char)
  | before :: value :: r =>
    let name := (before.reverse.takeWhile (!isAsciiBlank ·)).reverse
    (if name = "class=".toList then [value] else []) ++ classValues r
  | _ => []

/-- The classes of the tag with this text between its brackets. -/
def classesOfTag (body : List Char) : List ElementClass :=
  let element := String.ofList (body.takeWhile (!isAsciiBlank ·))
  let words := (classValues (pieces '"' body)).flatMap (pieces ' ')
  (words.filter (· ≠ [])).map fun word => ⟨element, String.ofList word⟩

/-- The classes in a text, tag by tag. -/
def classesIn : List Char → List ElementClass
  | [] => []
  | c :: r => (if c = '<' then ((tagBody? r).map classesOfTag).getD [] else []) ++ classesIn r

theorem classesIn_append {a : List Char} (h : isClosed a = true) (s : List Char) :
    classesIn (a ++ s) = classesIn a ++ classesIn s := by
  induction a with
  | nil => rfl
  | cons c r ih =>
    simp only [isClosed, Bool.and_eq_true, Bool.or_eq_true, bne_iff_ne] at h
    rw [List.cons_append, classesIn, classesIn, ih h.2, List.append_assoc]
    split
    · rename_i hc
      rw [tagBody?_append (h.1.resolve_left fun hne => hne hc)]
    · rfl

/-- Without brackets there are no classes. -/
theorem classesIn_of_no_angle {s : List Char} (h : '<' ∉ s) :
    isClosed s = true ∧ classesIn s = [] := by
  induction s with
  | nil => exact ⟨rfl, rfl⟩
  | cons c r ih =>
    obtain ⟨hc, hr⟩ := not_or.1 fun hm => h (List.mem_cons.2 hm)
    obtain ⟨hclosed, hnone⟩ := ih hr
    constructor
    · simp [isClosed, hclosed, Ne.symm hc]
    · rw [classesIn, if_neg (Ne.symm hc), hnone]
      rfl

/-! ## Styled texts -/

/-- The text ends outside its tags, and both themes have rules for all classes in it. -/
structure Styled (a : List Char) : Prop where
  closed : isClosed a = true
  styled : ∀ x ∈ classesIn a, StyledByAll x.selector

theorem Styled.append {a b : List Char} (ha : Styled a) (hb : Styled b) : Styled (a ++ b) where
  closed := isClosed_append ha.closed hb.closed
  styled := by
    intro x hx
    rw [classesIn_append ha.closed] at hx
    exact (List.mem_append.1 hx).elim (ha.styled x) (hb.styled x)

/-- Both themes have rules for the classes in a text, and there are some. -/
structure ShowsStyled (a : List Char) : Prop extends Styled a where
  classed : classesIn a ≠ []

theorem ShowsStyled.append {a b : List Char} (ha : ShowsStyled a) (hb : Styled b) :
    ShowsStyled (a ++ b) where
  toStyled := ha.toStyled.append hb
  classed := by
    rw [classesIn_append ha.closed]
    exact List.append_ne_nil_of_left_ne_nil ha.classed _

instance (a : List Char) : Decidable (Styled a) :=
  decidable_of_iff (isClosed a = true ∧
      ∀ x ∈ classesIn a, (bundled lightPalette).selects x.selector = true)
    ⟨fun h => ⟨h.1, fun x hx => styledByAll_iff.2 (h.2 x hx)⟩,
      fun h => ⟨h.closed, fun x hx => styledByAll_iff.1 (h.styled x hx)⟩⟩

instance (a : List Char) : Decidable (ShowsStyled a) :=
  decidable_of_iff (Styled a ∧ classesIn a ≠ [])
    ⟨fun h => ⟨h.1, h.2⟩, fun h => ⟨h.toStyled, h.classed⟩⟩

theorem styled_boxes : ∀ box ∈ [bulletBox, checkedBox, uncheckedBox], Styled box.toList := by
  decide +kernel

theorem showsStyled_itemOf : ∀ cls ∈ itemClasses, ShowsStyled (itemOf cls).toList := by
  decide +kernel

theorem showsStyled_rowTag : ∀ cls ∈ rowClasses,
    ShowsStyled ("<tr class=\"" ++ cls ++ "\">").toList := by
  decide +kernel

theorem styled_fixed : ShowsStyled ruleBox.toList ∧ Styled "<p class=\"p\">".toList ∧
    ShowsStyled "<span class=\"del\">".toList ∧ Styled "</span>".toList := by
  decide +kernel

/-! ## What a pass puts in -/

/-- Whatever takes the place of a tag is styled, and only the end of struck text has no class. -/
theorem styled_of_mem_replacements {k : Kind} {w : String} (h : w ∈ k.replacements) :
    Styled w.toList ∧ (k ≠ .delClose → ShowsStyled w.toList) := by
  obtain ⟨hrule, hpara, hopen, hclose⟩ := styled_fixed
  obtain ⟨f, st, hw⟩ := mem_replacements_iff.1 h
  by_cases hc : k = .delClose
  · subst hc
    cases hw
    exact ⟨hclose, fun hne => absurd rfl hne⟩
  · have hshows : ShowsStyled w.toList := by
      by_cases ho : k = .delOpen
      · subst ho
        cases hw
        exact hopen
      · exact replacement?_of_parts (fun _ _ ha hb => ShowsStyled.append ha hb) showsStyled_itemOf
          hpara styled_boxes showsStyled_rowTag hrule ho hc hw
    exact ⟨hshows.toStyled, fun _ => hshows⟩

/-- What is emitted for a tag is its own text, or styled. -/
theorem styled_replace {f : Features} {st : PassState} {t : Tag}
    (h : (st.replace f t).1 ≠ t.text) :
    Styled (st.replace f t).1 ∧ (t.kind ≠ .delClose → ShowsStyled (st.replace f t).1) := by
  obtain ⟨w, hw, hout⟩ := (text_replace f st t).resolve_left h
  rw [hout]
  exact styled_of_mem_replacements hw

/-- So is what is emitted in a run, from whatever state it starts. -/
theorem styled_steps {f : Features} {st : PassState} {l : List Tag} {t : Tag} {out : List Char}
    {st' : PassState} (hm : (t, out, st') ∈ l.zip (st.steps f l)) (h : out ≠ t.text) :
    Styled out ∧ (t.kind ≠ .delClose → ShowsStyled out) := by
  induction l generalizing st with
  | nil => cases hm
  | cons u l ih =>
    rw [PassState.steps, List.zip_cons_cons, List.mem_cons] at hm
    rcases hm with hm | hm
    · cases hm
      exact styled_replace h
    · exact ih hm

/-! ## The body and the error paragraph -/

theorem classesIn_body : classesIn bodyOpen.toList = [⟨"body", "multimarkdown-preview"⟩] ∧
    classesIn bodyClose.toList = [] := by
  decide +kernel

/-- The message of an error paragraph brings in no classes. -/
theorem classesIn_errorParagraph (message : String) :
    classesIn (errorParagraph message).toList = [⟨"p", "preview-error"⟩] := by
  have hopen : isClosed errorOpen.toList = true ∧
      classesIn errorOpen.toList = [⟨"p", "preview-error"⟩] := by
    decide +kernel
  have hclose : classesIn "</p>".toList = [] := by decide +kernel
  obtain ⟨hclosed, hnone⟩ := classesIn_of_no_angle (Text.no_angle_escape message.toList).1
  rw [toList_errorParagraph, List.append_assoc, classesIn_append hopen.1,
    classesIn_append hclosed, hopen.2, hnone, hclose]
  rfl

/-! ## All classes -/

/-- Both themes style what a run over some tags emits besides their own texts, the body of a preview
and the paragraph of any error. -/
structure EveryClassStyled (f : Features) (l : List Tag) : Prop where
  emitted : ∀ t out st, (t, out, st) ∈ l.zip (PassState.initial.steps f l) → out ≠ t.text →
    (∀ x ∈ classesIn out, StyledByAll x.selector) ∧ (t.kind ≠ .delClose → classesIn out ≠ [])
  body : classesIn bodyOpen.toList = [⟨"body", "multimarkdown-preview"⟩] ∧
    classesIn bodyClose.toList = [] ∧ StyledByAll "body.multimarkdown-preview"
  error : ∀ message, classesIn (errorParagraph message).toList = [⟨"p", "preview-error"⟩] ∧
    StyledByAll "p.preview-error"

/-- Every class that a preview is given is styled by both themes. -/
theorem every_class_styled (f : Features) (l : List Tag) : EveryClassStyled f l where
  emitted := by
    intro t out st hm h
    obtain ⟨hstyled, hshows⟩ := styled_steps hm h
    exact ⟨hstyled.styled, fun hk => (hshows hk).classed⟩
  body := by
    obtain ⟨hopen, hclose⟩ := classesIn_body
    exact ⟨hopen, hclose, styledByAll_iff.2 (by decide +kernel)⟩
  error := fun message => ⟨classesIn_errorParagraph message, styledByAll_iff.2 (by decide +kernel)⟩

end MarkdownPreview.Page
