import MarkdownPreview.Proofs.Markup.Scan

/-!
# Tags that are seen under all features

The tags of tables, rules, struck text and paragraph ends are looked for whatever the features, and
each of their spellings is one fixed text (`fixedTags`). No other spelling of the vocabulary finds
anything where such a text stands, so that these tags are seen at all places and in the same way.

* `tagAt?_eq_fixedTag_iff`: a fixed tag is found exactly where its text stands.
* `mem_fixedTags_of_tagAt?`: a tag of such a kind has one of the fixed texts.
* `kind_eq_iff_of_tagAt?`: where there is but one, the text decides on the kind.
-/
namespace MarkdownPreview.Markup

/-- The kinds that need no feature and whose tags have no gap, with the texts of their tags. -/
def fixedTags : List (Kind × String) :=
  (vocabulary.filter fun sp => sp.need.isNone && !sp.kind.hasGap).flatMap fun sp =>
    sp.canonical.map (sp.kind, ·)

theorem fixedTags_eq : fixedTags =
    [(.tableOpen, "<table>"), (.theadOpen, "<thead>"), (.tbodyOpen, "<tbody>"), (.rowOpen, "<tr>"),
      (.rule, "<hr/>"), (.rule, "<hr />"), (.delOpen, "<del>"), (.delClose, "</del>"),
      (.paraClose, "</p>")] := by decide

theorem tagAt?_of_mem_fixedTags {k : Kind} {text : String} (h : (k, text) ∈ fixedTags)
    (f : Features) (r : List Char) :
    tagAt? (active f) (text.toList ++ r) = some ⟨k, text.toList⟩ := by
  obtain ⟨tasks, bullets⟩ := f
  simp only [fixedTags_eq, List.mem_cons, Prod.mk.injEq, List.not_mem_nil, or_false] at h
  rcases h with ⟨rfl, rfl⟩ | ⟨rfl, rfl⟩ | ⟨rfl, rfl⟩ | ⟨rfl, rfl⟩ | ⟨rfl, rfl⟩ | ⟨rfl, rfl⟩ |
    ⟨rfl, rfl⟩ | ⟨rfl, rfl⟩ | ⟨rfl, rfl⟩ <;> cases tasks <;> cases bullets <;> rfl

/-- A fixed tag is found exactly where its text stands. -/
theorem tagAt?_eq_fixedTag_iff {k : Kind} {text : String} (h : (k, text) ∈ fixedTags)
    (f : Features) (s : List Char) :
    tagAt? (active f) s = some ⟨k, text.toList⟩ ↔ text.toList <+: s := by
  constructor
  · exact fun ht => ⟨_, tagAt?_append ht⟩
  · rintro ⟨r, rfl⟩
    exact tagAt?_of_mem_fixedTags h f r

theorem fixedTags_of_exactTexts : ∀ k ∈ Kind.all, k ∈ fixedTags.map Prod.fst →
    k ≠ .other ∧ k.hasGap = false ∧ ∀ text ∈ k.exactTexts, (k, text) ∈ fixedTags := by decide

/-- A tag of such a kind has one of the fixed texts. -/
theorem mem_fixedTags_of_tagAt? {f : Features} {s : List Char} {t : Tag}
    (hk : t.kind ∈ fixedTags.map Prod.fst) (h : tagAt? (active f) s = some t) :
    ∃ text, (t.kind, text) ∈ fixedTags ∧ t.text = text.toList := by
  obtain ⟨hne, hgap, htexts⟩ := fixedTags_of_exactTexts t.kind t.kind.mem_all hk
  obtain ⟨text, hm, ht⟩ := mem_exactTexts hgap (isExact_of_tagAt? h hne)
  exact ⟨text, htexts text hm, ht⟩

/-- If a kind has one fixed text, a tag is of that kind exactly where the text stands. -/
theorem kind_eq_iff_of_tagAt? {k : Kind} {text : String} (hm : (k, text) ∈ fixedTags)
    (hone : ∀ p ∈ fixedTags, p.1 = k → p.2 = text) {f : Features} {s : List Char} {t : Tag}
    (h : tagAt? (active f) s = some t) : t.kind = k ↔ text.toList <+: s := by
  rw [← tagAt?_eq_fixedTag_iff hm f, h, Option.some.injEq]
  constructor
  · rintro rfl
    obtain ⟨text', hm', ht⟩ := mem_fixedTags_of_tagAt? (List.mem_map_of_mem hm) h
    rw [← hone _ hm' rfl, ← ht]
  · intro he
    rw [he]

/-- Where no tag is found, no fixed text stands. -/
theorem not_prefix_of_no_tag {k : Kind} {text : String} (hm : (k, text) ∈ fixedTags)
    {f : Features} {s : List Char} (h : tagAt? (active f) s = none) : ¬text.toList <+: s := by
  rw [← tagAt?_eq_fixedTag_iff hm f, h]
  intro he
  cases he

end MarkdownPreview.Markup
