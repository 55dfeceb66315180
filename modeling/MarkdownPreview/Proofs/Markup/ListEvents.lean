import MarkdownPreview.Markup.Pass
import MarkdownPreview.Proofs.Markup.Scan

/-!
# List tags in a text

The pass records open lists by the kinds of the tags it meets. Here the same is read off the bare
text: a place where `<ul>` or `<ol>` begins opens a list, one where `</ul>` or `</ol>` begins closes
one, and `stackAt` keeps all the lists that are open at a place, however many they are.

* `listEvent?_of_tagAt?`, `listEvent?_of_no_tag`: while bullets are on, the scanner sees each of
  these places as what it is, and sees no others.
* `lists_next`: what a tag does to the record of the open lists.
-/
namespace MarkdownPreview.Markup

/-! ## Events -/

inductive ListEvent where
  | opens (k : ListKind)
  | closes
  deriving DecidableEq, Repr

/-- What a tag of this kind does to the open lists. -/
def Kind.listEvent? : Kind → Option ListEvent
  | .orderedOpen => some (.opens .ordered)
  | .unorderedOpen => some (.opens .unordered)
  | .orderedClose | .unorderedClose => some .closes
  | _ => none

/-- What the start of a text does to the open lists. Capitals and attributes do not count. -/
def listEvent? (s : List Char) : Option ListEvent :=
  if "<ul>".toList.isPrefixOf s then some (.opens .unordered)
  else if "<ol>".toList.isPrefixOf s then some (.opens .ordered)
  else if "</ul>".toList.isPrefixOf s || "</ol>".toList.isPrefixOf s then some .closes
  else none

/-- The kinds of list tags with their texts. -/
def listTags : List (Kind × String) :=
  [(.unorderedOpen, "<ul>"), (.orderedOpen, "<ol>"), (.unorderedClose, "</ul>"),
    (.orderedClose, "</ol>")]

theorem listEvent?_of_mem_listTags {k : Kind} {text : String} (h : (k, text) ∈ listTags)
    (r : List Char) : listEvent? (text.toList ++ r) = k.listEvent? := by
  simp only [listTags, List.mem_cons, Prod.mk.injEq, List.not_mem_nil, or_false] at h
  rcases h with ⟨rfl, rfl⟩ | ⟨rfl, rfl⟩ | ⟨rfl, rfl⟩ | ⟨rfl, rfl⟩ <;> rfl

theorem exists_listTag_of_listEvent? {s : List Char} (h : listEvent? s ≠ none) :
    ∃ k text r, (k, text) ∈ listTags ∧ s = text.toList ++ r := by
  have key : ∀ k text, (k, text) ∈ listTags → text.toList.isPrefixOf s = true →
      ∃ k text r, (k, text) ∈ listTags ∧ s = text.toList ++ r := by
    intro k text hm hp
    obtain ⟨r, rfl⟩ := List.isPrefixOf_iff_prefix.1 hp
    exact ⟨k, text, r, hm, rfl⟩
  unfold listEvent? at h
  split at h
  · exact key .unorderedOpen "<ul>" (by simp [listTags]) ‹_›
  · split at h
    · exact key .orderedOpen "<ol>" (by simp [listTags]) ‹_›
    · split at h
      · rename_i hc
        rcases Bool.or_eq_true _ _ ▸ hc with hc | hc
        · exact key .unorderedClose "</ul>" (by simp [listTags]) hc
        · exact key .orderedClose "</ol>" (by simp [listTags]) hc
      · exact absurd rfl h

/-! ## List tags are seen where they are -/

theorem tagAt?_of_mem_listTags {f : Features} (hf : f.iconBullets = true) {k : Kind}
    {text : String} (h : (k, text) ∈ listTags) (r : List Char) :
    tagAt? (active f) (text.toList ++ r) = some ⟨k, text.toList⟩ := by
  obtain ⟨tasks, bullets⟩ := f
  obtain rfl : bullets = true := hf
  simp only [listTags, List.mem_cons, Prod.mk.injEq, List.not_mem_nil, or_false] at h
  rcases h with ⟨rfl, rfl⟩ | ⟨rfl, rfl⟩ | ⟨rfl, rfl⟩ | ⟨rfl, rfl⟩ <;> cases tasks <;> rfl

theorem listTags_of_exactTexts : ∀ k ∈ Kind.all, k.listEvent? ≠ none →
    k.hasGap = false ∧ ∀ text ∈ k.exactTexts, (k, text) ∈ listTags := by decide

/-- A tag does to the open lists what the text does that begins with it. -/
theorem listEvent?_of_tagAt? {f : Features} (hf : f.iconBullets = true) {s : List Char} {t : Tag}
    (h : tagAt? (active f) s = some t) : listEvent? s = t.kind.listEvent? := by
  by_cases hs : listEvent? s = none
  · by_cases hk : t.kind.listEvent? = none
    · rw [hs, hk]
    · obtain ⟨hgap, htexts⟩ := listTags_of_exactTexts t.kind t.kind.mem_all hk
      have hne : t.kind ≠ .other := fun he => hk (by rw [he]; rfl)
      obtain ⟨text, hm, ht⟩ := mem_exactTexts hgap (isExact_of_tagAt? h hne)
      rw [← tagAt?_append h, ht]
      exact listEvent?_of_mem_listTags (htexts text hm) _
  · obtain ⟨k, text, r, hm, rfl⟩ := exists_listTag_of_listEvent? hs
    rw [tagAt?_of_mem_listTags hf hm r] at h
    cases h
    exact listEvent?_of_mem_listTags hm r

/-- Where there is no tag, no list is opened or closed. -/
theorem listEvent?_of_no_tag {f : Features} (hf : f.iconBullets = true) {s : List Char}
    (h : tagAt? (active f) s = none) : listEvent? s = none := by
  by_cases hs : listEvent? s = none
  · exact hs
  · obtain ⟨k, text, r, hm, rfl⟩ := exists_listTag_of_listEvent? hs
    rw [tagAt?_of_mem_listTags hf hm r] at h
    cases h

/-! ## The open lists of a text -/

/-- The open lists after an event, innermost first. Either closing tag closes the innermost one. -/
def stackAfter (stack : List ListKind) : Option ListEvent → List ListKind
  | none => stack
  | some (.opens k) => k :: stack
  | some .closes => stack.tail

/-- The open lists before place `i` of a text, innermost first. -/
def stackAt (s : List Char) : (i : Nat) → List ListKind
  | 0 => []
  | i + 1 => stackAfter (stackAt s i) (listEvent? (s.drop i))

/-! ## The record of the open lists -/

/-- What an event does to the record. -/
def ListNesting.after (l : ListNesting) : Option ListEvent → ListNesting
  | none => l
  | some (.opens k) => l.push k
  | some .closes => l.pop

theorem lists_next (st : PassState) (k : Kind) :
    (st.next k).lists = st.lists.after k.listEvent? := by
  cases k <;> rfl

/-- A record that holds all open lists does so after an event too, unless that opens more lists than
there are slots. -/
theorem openLists_after {l : ListNesting} {stack : List ListKind}
    (h : l.openLists.reverse = stack) {e : Option ListEvent}
    (hn : (stackAfter stack e).length ≤ l.capacity) :
    (l.after e).openLists.reverse = stackAfter stack e := by
  subst h
  rcases e with _ | k | _
  · rfl
  · have hlt : l.count < l.capacity := by
      simp only [stackAfter, List.length_cons, List.length_reverse, l.length_openLists] at hn
      exact hn
    rw [ListNesting.after, l.openLists_push_of_lt k hlt, List.reverse_concat]
    rfl
  · rw [ListNesting.after, l.openLists_pop, ← List.tail_reverse]
    rfl

theorem capacity_after (l : ListNesting) (e : Option ListEvent) :
    (l.after e).capacity = l.capacity := by
  rcases e with _ | k | _
  · rfl
  · exact l.capacity_push k
  · exact l.capacity_pop

end MarkdownPreview.Markup
