import MarkdownPreview.Proofs.Markup.FixedTags
import MarkdownPreview.Proofs.Markup.SecondPass

/-!
# Struck text

A pass shows struck text as a span: `<del>` becomes `<span class="del">` and `</del>` becomes
`</span>`. In HTML an opening tag may carry attributes, as in `<del cite="x">`. A pass does not see
such a tag, but it sees the closing tag that belongs to it. `elementTags` reads the tags of the two
elements off a text.

* `elementTagAt?_of_tagAt?`, `elementTagAt?_of_no_tag`: which of them the scanner sees.
* `elementTags_transform`: a pass renames the tags that it sees, and neither adds nor drops any.
* `elementsMatch_transform_iff`: tags that match still do after a pass exactly if no opening tag of
  struck text has attributes.
* `not_elementsMatch_transform`: struck text with an attribute.
-/
namespace MarkdownPreview.Markup

open Text (isAsciiBlank)

/-! ## Element tags -/

/-- The elements that struck text is written with, before a pass and after it. -/
inductive Element where
  | del
  | span
  deriving DecidableEq, Repr

def Element.name : Element → String
  | .del => "del"
  | .span => "span"

/-- A tag of such an element. An opening one is bare if it has no attributes. -/
inductive ElementTag where
  | opens (e : Element) (bare : Bool)
  | closes (e : Element)
  deriving DecidableEq, Repr

/-- The text up to the bracket that closes a tag, if no other bracket comes before. -/
def tagBody? : List Char → Option (List Char)
  | [] => none
  | c :: r =>
    if c = '>' then some []
    else if c = '<' then none
    else (tagBody? r).map (c :: ·)

/-- The tag of an element with this text between its brackets. -/
def Element.tag? (e : Element) (body : List Char) : Option ElementTag :=
  if body = e.name.toList then some (.opens e true)
  else if body = '/' :: e.name.toList then some (.closes e)
  else if e.name.toList.isPrefixOf body &&
      (body.drop e.name.toList.length).head?.any isAsciiBlank then some (.opens e false)
  else none

/-- The element tag at the start of a text. -/
def elementTagAt? : List Char → Option ElementTag
  | [] => none
  | c :: r =>
    if c = '<' then
      (tagBody? r).bind fun body => (Element.del.tag? body).or (Element.span.tag? body)
    else none

/-- The tag at a place depends only on the text between its brackets. -/
theorem elementTagAt?_congr {c : Char} {r r' : List Char}
    (h : c = '<' → tagBody? r = tagBody? r') :
    elementTagAt? (c :: r) = elementTagAt? (c :: r') := by
  rw [elementTagAt?, elementTagAt?]
  split
  · rename_i hc
    rw [h hc]
  · rfl

def elementTags : List Char → List ElementTag
  | [] => []
  | c :: r => (elementTagAt? (c :: r)).toList ++ elementTags r

/-! ## How a tag begins -/

/-- The blanks that may stand behind the name of a tag. -/
def asciiBlanks : List Char :=
  [' ', '\t', '\n', '\r', '\x0c', '\x0b']

theorem mem_asciiBlanks {c : Char} : c ∈ asciiBlanks ↔ isAsciiBlank c = true := by
  simp [asciiBlanks, isAsciiBlank, or_assoc]

/-- The texts of which a tag begins with one. -/
def ElementTag.starts : ElementTag → List (List Char)
  | .opens e true => ['<' :: (e.name.toList ++ ['>'])]
  | .opens e false => asciiBlanks.map fun b => '<' :: (e.name.toList ++ [b])
  | .closes e => ['<' :: '/' :: (e.name.toList ++ ['>'])]

theorem tagBody?_eq_some {r body : List Char} (h : tagBody? r = some body) :
    body ++ ['>'] <+: r := by
  induction r generalizing body with
  | nil => cases h
  | cons c r ih =>
    unfold tagBody? at h
    split at h
    · rename_i hc
      cases h
      exact ⟨r, by rw [hc]; rfl⟩
    · split at h
      · cases h
      · obtain ⟨b, hb, rfl⟩ := Option.map_eq_some_iff.1 h
        exact (List.prefix_cons_inj c).2 (ih hb)

theorem start_of_tag? {e : Element} {body : List Char} {t : ElementTag} (h : e.tag? body = some t) :
    ∃ u ∈ t.starts, u <+: '<' :: (body ++ ['>']) := by
  unfold Element.tag? at h
  split at h
  · rename_i he
    cases h
    exact ⟨_, List.mem_singleton_self _, he ▸ List.prefix_rfl⟩
  · split at h
    · rename_i he
      cases h
      exact ⟨_, List.mem_singleton_self _, he ▸ List.prefix_rfl⟩
    · split at h
      · rename_i hb
        cases h
        obtain ⟨hp, hb⟩ := Bool.and_eq_true_iff.1 hb
        obtain ⟨v, rfl⟩ := List.isPrefixOf_iff_prefix.1 hp
        rw [List.drop_left] at hb
        obtain ⟨b, hb, hblank⟩ := (Option.any_eq_true _ _).1 hb
        obtain ⟨w, rfl⟩ := List.head?_eq_some_iff.1 hb
        refine ⟨_, List.mem_map_of_mem (mem_asciiBlanks.2 hblank), w ++ ['>'], ?_⟩
        simp
      · cases h

theorem start_of_elementTagAt? {s : List Char} {t : ElementTag} (h : elementTagAt? s = some t) :
    ∃ u ∈ t.starts, u <+: s := by
  cases s with
  | nil => cases h
  | cons c r =>
    obtain ⟨rfl, hb⟩ := Option.ite_none_right_eq_some.1 h
    obtain ⟨body, hbody, ht⟩ := Option.bind_eq_some_iff.1 hb
    have hstart : ∃ u ∈ t.starts, u <+: '<' :: (body ++ ['>']) := by
      rcases Option.or_eq_some_iff.1 ht with ht | ⟨-, ht⟩
      · exact start_of_tag? ht
      · exact start_of_tag? ht
    obtain ⟨u, hu, hp⟩ := hstart
    exact ⟨u, hu, hp.trans ((List.prefix_cons_inj '<').2 (tagBody?_eq_some hbody))⟩

/-! ## Element tags and the vocabulary -/

/-- The element tag that tags of this kind are. -/
def Kind.elementTag? : Kind → Option ElementTag
  | .delOpen => some (.opens .del true)
  | .delClose => some (.closes .del)
  | _ => none

/-- The kinds of element tags with their texts. -/
def strikeTags : List (Kind × String) :=
  [(.delOpen, "<del>"), (.delClose, "</del>")]

theorem elementTagAt?_of_mem_strikeTags {k : Kind} {text : String} (h : (k, text) ∈ strikeTags)
    (r : List Char) : elementTagAt? (text.toList ++ r) = k.elementTag? := by
  simp only [strikeTags, List.mem_cons, Prod.mk.injEq, List.not_mem_nil, or_false] at h
  rcases h with ⟨rfl, rfl⟩ | ⟨rfl, rfl⟩ <;> rfl

theorem mem_fixedTags_of_mem_strikeTags : ∀ p ∈ strikeTags, p ∈ fixedTags := by decide

theorem tagAt?_of_mem_strikeTags {k : Kind} {text : String} (h : (k, text) ∈ strikeTags)
    (f : Features) (r : List Char) :
    tagAt? (active f) (text.toList ++ r) = some ⟨k, text.toList⟩ :=
  tagAt?_of_mem_fixedTags (mem_fixedTags_of_mem_strikeTags _ h) f r

theorem strikeTags_of_exactTexts : ∀ k ∈ Kind.all, k.elementTag? ≠ none →
    k.hasGap = false ∧ ∀ text ∈ k.exactTexts, (k, text) ∈ strikeTags := by decide

/-- Every element tag. -/
def ElementTag.all : List ElementTag :=
  [Element.del, .span].flatMap fun e => [.opens e true, .opens e false, .closes e]

theorem ElementTag.mem_all (t : ElementTag) : t ∈ ElementTag.all := by
  rcases t with ⟨_ | _, _ | _⟩ | ⟨_ | _⟩ <;> decide

theorem clashes_or_mem_strikeTags : ∀ t ∈ ElementTag.all, ∀ u ∈ t.starts,
    vocabulary.all (·.clashes u) = true ∨
      ∃ p ∈ strikeTags, p.1.elementTag? = some t ∧ u = p.2.toList := by decide

/-- Where an element tag begins, the scanner sees it as such or sees nothing. -/
theorem tagAt?_of_elementTagAt? (f : Features) {s : List Char} {t : ElementTag}
    (h : elementTagAt? s = some t) : tagAt? (active f) s = none ∨
      ∃ k text, (k, text) ∈ strikeTags ∧ k.elementTag? = some t ∧
        tagAt? (active f) s = some ⟨k, text.toList⟩ := by
  obtain ⟨u, hu, hp⟩ := start_of_elementTagAt? h
  rcases clashes_or_mem_strikeTags t t.mem_all u hu with hc | ⟨⟨k, text⟩, hm, hk, rfl⟩
  · refine .inl (tagAt?_eq_none_iff.2 fun sp hsp => ?_)
    exact Spelling.take?_of_clash
      (List.all_eq_true.1 hc sp (mem_vocabulary_of_mem_active hsp)) hp
  · obtain ⟨r, rfl⟩ := hp
    exact .inr ⟨k, text, hm, hk, tagAt?_of_mem_strikeTags hm f r⟩

theorem elementTagAt?_of_tagAt? {f : Features} {s : List Char} {t : Tag}
    (h : tagAt? (active f) s = some t) : elementTagAt? s = t.kind.elementTag? := by
  cases hs : elementTagAt? s with
  | some e =>
    rcases tagAt?_of_elementTagAt? f hs with hn | ⟨k, text, -, hk, ht⟩
    · rw [h] at hn
      cases hn
    · rw [h] at ht
      cases ht
      exact hk.symm
  | none =>
    cases hk : t.kind.elementTag? with
    | none => rfl
    | some e =>
      have hsome : t.kind.elementTag? ≠ none := by rw [hk]; simp
      obtain ⟨hgap, htexts⟩ := strikeTags_of_exactTexts t.kind t.kind.mem_all hsome
      have hne : t.kind ≠ .other := fun he => hsome (by rw [he]; rfl)
      obtain ⟨text, hm, ht⟩ := mem_exactTexts hgap (isExact_of_tagAt? h hne)
      have := elementTagAt?_of_mem_strikeTags (htexts text hm) (s.drop t.text.length)
      rw [← ht, tagAt?_append h, hs, hk] at this
      cases this

/-! ## Renaming -/

/-- What a pass makes of an element tag. -/
def ElementTag.renamed : ElementTag → ElementTag
  | .opens .del true => .opens .span false
  | .closes .del => .closes .span
  | t => t

/-- The element tags that the scanner does not see stay as they are. -/
theorem elementTagAt?_of_no_tag {f : Features} {s : List Char}
    (h : tagAt? (active f) s = none) : (elementTagAt? s).map ElementTag.renamed = elementTagAt? s := by
  cases hs : elementTagAt? s with
  | none => rfl
  | some e =>
    have key : ∀ e ∈ ElementTag.all, e.renamed ≠ e →
        ∃ u ∈ strikeTags, e.starts = [u.2.toList] := by decide
    by_cases he : e.renamed = e
    · rw [Option.map_some, he]
    · obtain ⟨⟨k, text⟩, hm, hstart⟩ := key e e.mem_all he
      obtain ⟨u, hu, r, rfl⟩ := start_of_elementTagAt? hs
      rw [hstart, List.mem_singleton] at hu
      rw [hu, tagAt?_of_mem_strikeTags hm f r] at h
      cases h

/-! ## Inside a tag -/

theorem eq_cons_of_mem_starts {t : ElementTag} {u : List Char} (h : u ∈ t.starts) :
    ∃ d r, u = '<' :: d :: r ∧ smallLetter d ≠ 'p' := by
  rcases t with ⟨e, _ | _⟩ | e
  · obtain ⟨b, -, rfl⟩ := List.mem_map.1 h
    cases e
    · exact ⟨'d', _, rfl, by decide⟩
    · exact ⟨'s', _, rfl, by decide⟩
  · obtain rfl := List.mem_singleton.1 h
    cases e
    · exact ⟨'d', _, rfl, by decide⟩
    · exact ⟨'s', _, rfl, by decide⟩
  · obtain rfl := List.mem_singleton.1 h
    exact ⟨'/', _, rfl, by decide⟩

/-- No element tag begins inside a tag that the scanner found. -/
theorem elementTagAt?_inside {f : Features} {s : List Char} {t : Tag}
    (h : tagAt? (active f) s = some t) {k : Nat} (hk : 0 < k) (hl : k < t.text.length) :
    elementTagAt? (s.drop k) = none := by
  cases hs : elementTagAt? (s.drop k) with
  | none => rfl
  | some e =>
    obtain ⟨u, hu, r, hr⟩ := start_of_elementTagAt? hs
    obtain ⟨d, v, rfl, hd⟩ := eq_cons_of_mem_starts hu
    obtain ⟨sp, hsp, a, ha, rfl⟩ := exists_take?_of_tagAt? h
    have hka := Nat.lt_of_lt_of_le hl (length_settle_le ..)
    exact absurd (Spelling.paragraph_inside (mem_vocabulary_of_mem_active hsp) ha hk hka hr.symm) hd

theorem elementTags_append_of_none {a s : List Char}
    (h : ∀ k, k < a.length → elementTagAt? ((a ++ s).drop k) = none) :
    elementTags (a ++ s) = elementTags s := by
  induction a with
  | nil => rfl
  | cons c a ih =>
    have hc : elementTagAt? (c :: (a ++ s)) = none := h 0 (Nat.zero_lt_succ _)
    rw [List.cons_append, elementTags, hc]
    exact ih fun k hk => h (k + 1) (Nat.succ_lt_succ hk)

/-- Of a tag that the scanner found, only the tag itself can be an element tag. -/
theorem elementTags_tag {f : Features} {s : List Char} {t : Tag}
    (h : tagAt? (active f) (t.text ++ s) = some t) :
    elementTags (t.text ++ s) = t.kind.elementTag?.toList ++ elementTags s := by
  have hin : ∀ k, 0 < k → k < t.text.length → elementTagAt? ((t.text ++ s).drop k) = none :=
    fun k hk hl => elementTagAt?_inside h hk hl
  rw [← elementTagAt?_of_tagAt? h]
  cases hx : t.text with
  | nil => exact absurd hx (tagAt?_text_ne_nil h)
  | cons c a =>
    rw [hx] at hin
    have hrest : elementTags (a ++ s) = elementTags s :=
      elementTags_append_of_none fun k hk => hin (k + 1) (Nat.succ_pos k) (Nat.succ_lt_succ hk)
    rw [List.cons_append, elementTags, hrest]

/-! ## Texts that end outside their tags -/

/-- Whether each bracket that opens something is followed by another bracket. -/
def isClosed : List Char → Bool
  | [] => true
  | c :: r => (c != '<' || r.any fun d => d = '<' || d = '>') && isClosed r

theorem isClosed_append {a b : List Char} (ha : isClosed a = true) (hb : isClosed b = true) :
    isClosed (a ++ b) = true := by
  induction a with
  | nil => exact hb
  | cons c r ih =>
    simp only [isClosed, Bool.and_eq_true, Bool.or_eq_true] at ha
    simp only [List.cons_append, isClosed, Bool.and_eq_true, Bool.or_eq_true, List.any_append]
    exact ⟨ha.1.imp_right .inl, ih ha.2⟩

theorem tagBody?_append {r : List Char} (h : (r.any fun d => d = '<' || d = '>') = true)
    (s : List Char) : tagBody? (r ++ s) = tagBody? r := by
  induction r with
  | nil => cases h
  | cons c r ih =>
    rw [List.cons_append, tagBody?, tagBody?]
    split
    · rfl
    · split
      · rfl
      · rename_i hgt hlt
        rw [List.any_cons] at h
        rw [ih (by simpa [hgt, hlt] using h)]

theorem elementTags_append {a : List Char} (h : isClosed a = true) (s : List Char) :
    elementTags (a ++ s) = elementTags a ++ elementTags s := by
  induction a with
  | nil => rfl
  | cons c r ih =>
    simp only [isClosed, Bool.and_eq_true, Bool.or_eq_true] at h
    have hc : elementTagAt? (c :: (r ++ s)) = elementTagAt? (c :: r) := by
      refine elementTagAt?_congr fun hb => tagBody?_append (h.1.resolve_left ?_) s
      simp [hb]
    rw [List.cons_append, elementTags, elementTags, hc, ih h.2, List.append_assoc]

/-! ## What a pass puts in -/

/-- The text ends outside its tags, and these are its element tags. -/
structure HoldsTags (a : List Char) (ts : List ElementTag) : Prop where
  closed : isClosed a = true
  tags : elementTags a = ts

instance (a : List Char) (ts : List ElementTag) : Decidable (HoldsTags a ts) :=
  decidable_of_iff (isClosed a = true ∧ elementTags a = ts)
    ⟨fun h => ⟨h.1, h.2⟩, fun h => ⟨h.closed, h.tags⟩⟩

theorem HoldsTags.append {a b : List Char} {ts us : List ElementTag} (ha : HoldsTags a ts)
    (hb : HoldsTags b us) : HoldsTags (a ++ b) (ts ++ us) where
  closed := isClosed_append ha.closed hb.closed
  tags := by rw [elementTags_append ha.closed, ha.tags, hb.tags]

theorem holdsTags_boxes : ∀ box ∈ [bulletBox, checkedBox, uncheckedBox],
    HoldsTags box.toList [] := by decide +kernel

theorem holdsTags_itemOf : ∀ cls ∈ itemClasses, HoldsTags (itemOf cls).toList [] := by
  decide +kernel

theorem holdsTags_rowTag : ∀ cls ∈ rowClasses,
    HoldsTags ("<tr class=\"" ++ cls ++ "\">").toList [] := by decide +kernel

theorem holdsTags_fixed : HoldsTags ruleBox.toList [] ∧ HoldsTags "<p class=\"p\">".toList [] ∧
    HoldsTags "<span class=\"del\">".toList [.opens .span false] ∧
    HoldsTags "</span>".toList [.closes .span] := by decide +kernel

/-- What a pass puts in the place of a tag holds the renamed element tag and no other. -/
theorem holdsTags_of_replacement? {f : Features} {st : PassState} {k : Kind} {w : String}
    (h : st.replacement? f k = some w) :
    HoldsTags w.toList (k.elementTag?.map ElementTag.renamed).toList := by
  obtain ⟨hrule, hp, hopen, hclose⟩ := holdsTags_fixed
  by_cases ho : k = .delOpen
  · subst ho
    cases h
    exact hopen
  · by_cases hc : k = .delClose
    · subst hc
      cases h
      exact hclose
    · have hk : k.elementTag? = none := by
        cases k with
        | delOpen => exact absurd rfl ho
        | delClose => exact absurd rfl hc
        | _ => rfl
      rw [hk]
      exact replacement?_of_parts (P := (HoldsTags · [])) (Q := (HoldsTags · []))
        (fun _ _ ha hb => ha.append hb) holdsTags_itemOf hp holdsTags_boxes holdsTags_rowTag hrule
        ho hc h

/-! ## The tags behind a pass -/

theorem text_eq_cons_of_tagAt? {f : Features} {s : List Char} {t : Tag}
    (h : tagAt? (active f) s = some t) : ∃ r, t.text = '<' :: r := by
  obtain ⟨sp, hsp, a, ha, rfl⟩ := exists_take?_of_tagAt? h
  obtain ⟨r, rfl⟩ := Spelling.take?_eq_cons (opensTag_of_mem_active hsp) ha
  have happ := settle_append sp.kind ('<' :: r)
  cases hx : (settle sp.kind ('<' :: r)).text with
  | nil => exact absurd hx (settle_text_ne_nil (List.cons_ne_nil _ _))
  | cons c v =>
    rw [hx] at happ
    rw [(List.cons.inj happ).1]
    exact ⟨v, rfl⟩

theorem eq_cons_of_standsApart {a : List Char} (h : standsApart a = true) :
    ∃ r, a = '<' :: r := by
  unfold standsApart at h
  split at h
  · exact ⟨_, rfl⟩
  · cases h

/-- A tag that a place belongs to ends behind a pass as it did before. -/
theorem tagBody?_echo {f : Features} {l : List Segment} (h : Reads f l) (st : PassState) :
    tagBody? (textOf (echoToClose f st l)) = tagBody? (textOf l) := by
  induction l generalizing st with
  | nil =>
    rw [echoToClose, echo, List.nil_append, textOf_map_plain]
    decide +kernel
  | cons x l ih =>
    cases x with
    | plain c =>
      have hl := ih h.2 st
      rw [show textOf (echoToClose f st (.plain c :: l)) = c :: textOf (echoToClose f st l) from rfl,
        textOf_plain, tagBody?, tagBody?, hl]
    | tag t =>
      -- before and behind the pass another tag begins here
      obtain ⟨r, hr⟩ := text_eq_cons_of_tagAt? h.1
      rw [textOf_tag, hr, echoToClose, echo]
      cases hw : st.replacement? f t.kind with
      | none =>
        simp only [List.cons_append, textOf_tag, hr]
        rfl
      | some w =>
        obtain ⟨v, hv⟩ := eq_cons_of_standsApart (standsApart_of_replacement? hw)
        simp only [List.append_assoc, textOf_append, textOf_map_plain, hv, List.cons_append]
        rfl

theorem elementTag?_of_no_replacement {f : Features} {st : PassState} {k : Kind}
    (h : st.replacement? f k = none) : k.elementTag? = none := by
  cases k with
  | delOpen => cases h
  | delClose => cases h
  | _ => rfl

theorem elementTags_echo {f : Features} {l : List Segment} (h : Reads f l) (st : PassState) :
    elementTags (textOf (echoToClose f st l)) =
      (elementTags (textOf l)).map ElementTag.renamed := by
  induction l generalizing st with
  | nil =>
    rw [echoToClose, echo, List.nil_append, textOf_map_plain]
    decide +kernel
  | cons x l ih =>
    cases x with
    | plain c =>
      have hat : elementTagAt? (c :: textOf (echoToClose f st l)) =
          elementTagAt? (c :: textOf l) :=
        elementTagAt?_congr fun _ => tagBody?_echo h.2 st
      have hkeep := elementTagAt?_of_no_tag h.1
      rw [show textOf (echoToClose f st (.plain c :: l)) = c :: textOf (echoToClose f st l) from rfl,
        textOf_plain, elementTags, elementTags, ih h.2 st, hat, List.map_append, ← Option.toList_map,
        hkeep]
    | tag t =>
      have hread := reads_echo h st
      rw [textOf_tag, elementTags_tag h.1, List.map_append, ← ih h.2 (st.next t.kind),
        ← Option.toList_map]
      rw [echoToClose, echo] at hread ⊢
      cases hw : st.replacement? f t.kind with
      | none =>
        rw [hw] at hread
        have htag := elementTags_tag hread.1
        rw [elementTag?_of_no_replacement hw] at htag ⊢
        exact htag
      | some w =>
        have hs := holdsTags_of_replacement? hw
        rw [List.append_assoc, textOf_append, textOf_map_plain, elementTags_append hs.closed, hs.tags]
        rfl

/-- A pass renames the tags of struck text that it sees, and leaves all others where they are. -/
theorem elementTags_transform (f : Features) (html : String) :
    elementTags (transform f html).toList =
      (elementTags html.toList).map ElementTag.renamed := by
  have hopen : HoldsTags bodyOpen.toList [] := by decide +kernel
  rw [toList_transform, elementTags_append hopen.closed, hopen.tags, List.nil_append,
    elementTags_echo (reads_segments f html.toList), textOf_segments]

/-! ## Matching tags -/

/-- The open elements behind a tag, innermost first, unless it closes another element than the
innermost one. -/
def ElementTag.nest : ElementTag → List Element → Option (List Element)
  | .opens e _, stack => some (e :: stack)
  | .closes e, c :: stack => if c = e then some stack else none
  | .closes _, [] => none

/-- The open elements behind some tags. -/
def nestTags : List ElementTag → List Element → Option (List Element)
  | [], stack => some stack
  | t :: r, stack => (t.nest stack).bind (nestTags r)

/-- Each closing tag of a text closes the innermost element, and none stays open. -/
def ElementsMatch (s : List Char) : Prop :=
  nestTags (elementTags s) [] = some []

instance (s : List Char) : Decidable (ElementsMatch s) :=
  inferInstanceAs (Decidable (_ = _))

/-- Without attributes on struck text, every tag is renamed into one of a span. -/
theorem nestTags_renamed {ts : List ElementTag} (hb : .opens .del false ∉ ts)
    {stack stack' : List Element} (h : nestTags ts stack = some stack') :
    nestTags (ts.map ElementTag.renamed) (stack.map fun _ => .span) =
      some (stack'.map fun _ => .span) := by
  induction ts generalizing stack with
  | nil =>
    cases h
    rfl
  | cons t ts ih =>
    rw [List.mem_cons, not_or] at hb
    obtain ⟨mid, ht, hr⟩ := Option.bind_eq_some_iff.1 h
    have hstep : t.renamed.nest (stack.map fun _ => .span) = some (mid.map fun _ => .span) := by
      rcases t with ⟨e, bare⟩ | e
      · cases ht
        rcases e with _ | _
        · cases bare with
          | true => rfl
          | false => exact absurd rfl hb.1
        · rfl
      · cases stack with
        | nil => cases ht
        | cons c stack =>
          obtain ⟨-, he⟩ := Option.ite_none_right_eq_some.1 ht
          cases he
          cases e <;> rfl
    rw [List.map_cons, nestTags, hstep]
    exact ih hb.2 hr

/-- Struck text that is open behind a renamed tag can no longer be closed. -/
theorem del_mem_of_nest {t : ElementTag} {stack stack' : List Element}
    (h : t.renamed.nest stack = some stack') (hd : .del ∈ stack ∨ t = .opens .del false) :
    .del ∈ stack' := by
  rcases t with ⟨e, bare⟩ | e
  · rcases hd with hd | hd
    · have hstack : ∃ e', stack' = e' :: stack := by
        rcases e with _ | _ <;> rcases bare with _ | _ <;> cases h <;> exact ⟨_, rfl⟩
      obtain ⟨e', rfl⟩ := hstack
      exact List.mem_cons_of_mem e' hd
    · cases hd
      cases h
      exact List.mem_cons_self
  · have hspan : (ElementTag.closes e).renamed = .closes .span := by cases e <;> rfl
    have hd := hd.resolve_right (by simp)
    rw [hspan] at h
    cases stack with
    | nil => cases h
    | cons c stack =>
      obtain ⟨hc, he⟩ := Option.ite_none_right_eq_some.1 h
      cases he
      exact (List.mem_cons.1 hd).resolve_left (by rw [hc]; simp)

theorem del_mem_of_nestTags {ts : List ElementTag} {stack stack' : List Element}
    (h : nestTags (ts.map ElementTag.renamed) stack = some stack')
    (hd : .del ∈ stack ∨ .opens .del false ∈ ts) : .del ∈ stack' := by
  induction ts generalizing stack with
  | nil =>
    cases h
    exact hd.resolve_right List.not_mem_nil
  | cons t ts ih =>
    obtain ⟨mid, ht, hr⟩ := Option.bind_eq_some_iff.1 h
    refine ih hr ?_
    rcases hd with hd | hd
    · exact .inl (del_mem_of_nest ht (.inl hd))
    · rcases List.mem_cons.1 hd with rfl | hd
      · exact .inl (del_mem_of_nest ht (.inr rfl))
      · exact .inr hd

/-- Tags of struck text and spans that match do so after a pass exactly if no opening tag of struck
text has attributes. -/
theorem elementsMatch_transform_iff {f : Features} {html : String}
    (h : ElementsMatch html.toList) :
    ElementsMatch (transform f html).toList ↔ .opens .del false ∉ elementTags html.toList := by
  unfold ElementsMatch at h ⊢
  rw [elementTags_transform]
  constructor
  · intro hm hb
    have := del_mem_of_nestTags hm (.inr hb)
    cases this
  · intro hb
    exact nestTags_renamed hb h

/-- A span with attributes inside struck text. -/
theorem elementsMatch_transform_span :
    ElementsMatch "<del>a <span class=\"x\">b</span></del>".toList ∧
      ElementsMatch (transform ⟨true, true⟩ "<del>a <span class=\"x\">b</span></del>").toList := by
  have h : ElementsMatch "<del>a <span class=\"x\">b</span></del>".toList := by decide +kernel
  exact ⟨h, (elementsMatch_transform_iff h).2 (by decide +kernel)⟩

/-- Struck text with an attribute keeps its opening tag and loses its closing tag. -/
theorem not_elementsMatch_transform : ElementsMatch "<del class=\"x\">a</del>".toList ∧
    ¬ElementsMatch (transform ⟨false, false⟩ "<del class=\"x\">a</del>").toList := by
  decide +kernel

end MarkdownPreview.Markup
