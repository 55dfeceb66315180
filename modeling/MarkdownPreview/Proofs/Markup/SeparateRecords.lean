import MarkdownPreview.Proofs.Markup.Bullets
import MarkdownPreview.Proofs.Markup.ClampedStack
import MarkdownPreview.Proofs.Markup.Partition
import MarkdownPreview.Proofs.Markup.SecondPass

/-!
# The two records of a pass

A pass remembers the rows of a table and the open lists, and neither has anything to do with the
other. A *record* is a part of the state that is kept from tags of a few kinds only, and that alone
decides on the texts of some of them. Whatever tags a pass is given, in any order and also of kinds
that its features do not look for, it does with a record what it would do if it were given nothing
but the tags that the record needs.

* `Record.held_after`, `Record.stepsFor_needed`: the other tags may be left out.
* `tableRecord`, `listRecord`: the rows and the open lists are such records.
* `replace_of_neither`: a text that neither decides on depends on its tag alone.
* `tables_and_lists_apart`: two runs that agree on the tags of one record agree on all that comes of
  it, and tags of the other one can be put in or left out anywhere.
-/
namespace MarkdownPreview.Markup

open ListNesting (View)

/-! ## Tags of some kinds in a run -/

/-- What a pass emits for those tags of a run that are of some kinds, each text with the state after
it. -/
def PassState.stepsFor (f : Features) (p : Kind → Bool) (st : PassState) (l : List Tag) :
    List (List Char × PassState) :=
  ((l.zip (st.steps f l)).filter fun x => p x.1.kind).map Prod.snd

theorem stepsFor_cons (f : Features) (p : Kind → Bool) (st : PassState) (t : Tag) (l : List Tag) :
    st.stepsFor f p (t :: l) =
      if p t.kind = true then st.replace f t :: (st.next t.kind).stepsFor f p l
      else (st.next t.kind).stepsFor f p l := by
  unfold PassState.stepsFor
  rw [PassState.steps, List.zip_cons_cons, List.filter_cons]
  split <;> rfl

/-! ## Records -/

/-- A part of the state of a pass that is kept from tags of few kinds. -/
structure Record (σ : Type) where
  held : PassState → σ
  /-- The kinds of the tags that the record is kept from, or whose text it decides on. -/
  needs : Kind → Bool
  decides : Kind → Bool
  /-- What the record needs of a tag. -/
  strip : Tag → Tag
  needs_of_decides : ∀ k, decides k = true → needs k = true
  kind_strip : ∀ t, (strip t).kind = t.kind
  held_next_of_not : ∀ st k, needs k = false → held (st.next k) = held st
  held_next : ∀ st st' k, held st = held st' → held (st.next k) = held (st'.next k)
  replace_strip : ∀ f st st' t, decides t.kind = true → held st = held st' →
    (st.replace f t).1 = (st'.replace f (strip t)).1

namespace Record
variable {σ : Type} (r : Record σ)

/-- The tags of a run that the record needs, as far as it needs them. -/
def needed (l : List Tag) : List Tag :=
  (l.filter fun t => r.needs t.kind).map r.strip

theorem needed_cons_of_not {t : Tag} (h : r.needs t.kind = false) (l : List Tag) :
    r.needed (t :: l) = r.needed l := by
  rw [needed, List.filter_cons, h, if_neg Bool.false_ne_true, needed]

theorem needed_cons {t : Tag} (h : r.needs t.kind = true) (l : List Tag) :
    r.needed (t :: l) = r.strip t :: r.needed l := by
  rw [needed, List.filter_cons, if_pos h, List.map_cons, needed]

theorem needed_append (a b : List Tag) : r.needed (a ++ b) = r.needed a ++ r.needed b := by
  rw [needed, List.filter_append, List.map_append, needed, needed]

theorem needed_eq_nil {l : List Tag} (h : ∀ t ∈ l, r.needs t.kind = false) : r.needed l = [] := by
  rw [needed, List.map_eq_nil_iff, List.filter_eq_nil_iff]
  intro t ht
  simp [h t ht]

/-- The record is the same if the tags that it does not need are left out. -/
theorem held_after {st st' : PassState} (h : r.held st = r.held st') (l : List Tag) :
    r.held (st.after l) = r.held (st'.after (r.needed l)) := by
  induction l generalizing st st' with
  | nil => exact h
  | cons t l ih =>
    cases hn : r.needs t.kind with
    | false =>
      rw [r.needed_cons_of_not hn]
      exact ih ((r.held_next_of_not st t.kind hn).trans h)
    | true =>
      have hafter : st'.after (r.strip t :: r.needed l) = (st'.next t.kind).after (r.needed l) :=
        congrArg (fun k => (st'.next k).after (r.needed l)) (r.kind_strip t)
      rw [r.needed_cons hn, hafter]
      exact ih (r.held_next st st' t.kind h)

/-- So is anything that depends on the record when a tag is replaced that it needs. -/
theorem stepsFor_needed {β : Type} {f : Features} {p : Kind → Bool}
    (see : List Char × PassState → β) (hp : ∀ k, p k = true → r.needs k = true)
    (hsee : ∀ st st' t, p t.kind = true → r.held st = r.held st' →
      see (st.replace f t) = see (st'.replace f (r.strip t)))
    {st st' : PassState} (h : r.held st = r.held st') (l : List Tag) :
    (st.stepsFor f p l).map see = (st'.stepsFor f p (r.needed l)).map see := by
  induction l generalizing st st' with
  | nil => rfl
  | cons t l ih =>
    have hnext := r.held_next st st' t.kind h
    cases hn : r.needs t.kind with
    | false =>
      have hpt : ¬p t.kind = true := fun hpt => by simp [hp _ hpt] at hn
      rw [r.needed_cons_of_not hn, stepsFor_cons, if_neg hpt]
      exact ih ((r.held_next_of_not st t.kind hn).trans h)
    | true =>
      rw [r.needed_cons hn, stepsFor_cons, stepsFor_cons, r.kind_strip t]
      split
      · rename_i hpt
        rw [List.map_cons, List.map_cons, hsee st st' t hpt h, ih hnext]
      · exact ih hnext

section
variable {r} {f : Features} {l l' : List Tag}

/-- Two runs with the same needed tags end with the same record, -/
theorem held_after_congr (h : r.needed l = r.needed l') (st : PassState) :
    r.held (st.after l) = r.held (st.after l') := by
  have hst : r.held st = r.held st := rfl
  rw [r.held_after hst l, h, ← r.held_after hst l']

/-- have it after each of these tags, -/
theorem held_stepsFor_congr (h : r.needed l = r.needed l') (st : PassState) :
    (st.stepsFor f r.needs l).map (fun x => r.held x.2) =
      (st.stepsFor f r.needs l').map fun x => r.held x.2 := by
  have hsee : ∀ st st' t, r.needs t.kind = true → r.held st = r.held st' →
      r.held (st.replace f t).2 = r.held (st'.replace f (r.strip t)).2 := by
    intro st st' t _ hst
    rw [PassState.replace, PassState.replace, r.kind_strip]
    exact r.held_next st st' t.kind hst
  have hst : r.held st = r.held st := rfl
  have key := fun l => r.stepsFor_needed (fun x => r.held x.2) (fun _ => id) hsee hst l
  rw [key l, h, ← key l']

/-- and emit the same texts where the record decides on them. -/
theorem text_stepsFor_congr (h : r.needed l = r.needed l') (st : PassState) :
    (st.stepsFor f r.decides l).map Prod.fst = (st.stepsFor f r.decides l').map Prod.fst := by
  have hst : r.held st = r.held st := rfl
  have key := fun l => r.stepsFor_needed Prod.fst r.needs_of_decides (r.replace_strip f) hst l
  rw [key l, h, ← key l']

/-- Tags that the record does not need can be put in. -/
theorem held_after_insert {b : List Tag} (h : ∀ t ∈ b, r.needs t.kind = false) (a c : List Tag)
    (st : PassState) : r.held (st.after (a ++ b ++ c)) = r.held (st.after (a ++ c)) := by
  refine held_after_congr ?_ st
  simp only [needed_append, r.needed_eq_nil h, List.append_nil]

end

end Record

/-! ## Rows and open lists -/

/-- Whether tags of this kind are counted as rows or begin the count anew. -/
def Kind.isOfTables (k : Kind) : Bool :=
  k = .tableOpen || k = .rowOpen

/-- Whether tags of this kind open or close lists, or are items that may get a bullet. -/
def Kind.isOfLists (k : Kind) : Bool :=
  k.isListTag || k.isPlainItem

/-- The counter of rows: nothing but the kinds of the tags of tables matters to it. -/
def tableRecord : Record Nat where
  held := PassState.rows
  needs := Kind.isOfTables
  decides k := k = .rowOpen
  strip t := ⟨t.kind, []⟩
  needs_of_decides k hk := by
    rw [of_decide_eq_true hk]
    rfl
  kind_strip _ := rfl
  held_next_of_not st k hk := by
    cases k <;> first | rfl | cases hk
  held_next st st' k h := by rw [rows_next, rows_next, h]
  replace_strip f st st' t ht h := by
    have hk : t.kind = .rowOpen := of_decide_eq_true ht
    rw [PassState.replace, PassState.replace, hk, PassState.replacement?, PassState.replacement?, h]
    rfl

theorem replacement?_plainItem_congr (f : Features) {st st' : PassState}
    (h : st.lists = st'.lists) {k : Kind} (hk : k.isPlainItem = true) :
    st.replacement? f k = st'.replacement? f k := by
  have hw : st.wantsBullet f = st'.wantsBullet f := by
    rw [PassState.wantsBullet, PassState.wantsBullet, h]
  cases k with
  | itemOpen | itemPara => rw [PassState.replacement?, PassState.replacement?, hw]
  | _ => cases hk

/-- What is emitted for a plain item depends on it and on the open lists. -/
theorem replace_plainItem_congr (f : Features) {st st' : PassState} (h : st.lists = st'.lists)
    {t : Tag} (ht : t.kind.isPlainItem = true) : (st.replace f t).1 = (st'.replace f t).1 := by
  rw [PassState.replace, PassState.replace, replacement?_plainItem_congr f h ht]

/-- The open lists, with the items that may get a bullet. -/
def listRecord : Record ListNesting where
  held := PassState.lists
  needs := Kind.isOfLists
  decides := Kind.isPlainItem
  strip := id
  needs_of_decides k hk := by rw [Kind.isOfLists, hk, Bool.or_true]
  kind_strip _ := rfl
  held_next_of_not st k hk := by
    have hn : k.listEvent? = none := by
      simp only [Kind.isOfLists, Kind.isListTag, Bool.or_eq_false_iff, Option.isSome_eq_false_iff,
        Option.isNone_iff_eq_none] at hk
      exact hk.1
    rw [lists_next, hn]
    rfl
  held_next _ _ k h := lists_next_congr h k
  replace_strip f _ _ _ ht h := replace_plainItem_congr f h ht

theorem replacement?_of_neither {k : Kind} (hr : k ≠ .rowOpen) (hp : k.isPlainItem = false)
    (f g : Features) (st st' : PassState) : st.replacement? f k = st'.replacement? g k := by
  cases k with
  | rowOpen => exact absurd rfl hr
  | itemOpen | itemPara => cases hp
  | _ => rfl

/-- A text that neither record decides on depends on its tag alone. -/
theorem replace_of_neither {t : Tag} (hr : t.kind ≠ .rowOpen) (hp : t.kind.isPlainItem = false)
    (f g : Features) (st st' : PassState) : (st.replace f t).1 = (st'.replace g t).1 := by
  rw [PassState.replace, PassState.replace, replacement?_of_neither hr hp f g st st']

/-! ## Runs of a new pass -/

/-- The texts that a new pass emits for those tags of a run that are of some kinds. -/
def textsFor (f : Features) (p : Kind → Bool) (l : List Tag) : List (List Char) :=
  (PassState.initial.stepsFor f p l).map Prod.fst

/-- The number of rows after each tag of a run that is one of a table. -/
def rowCounts (f : Features) (l : List Tag) : List Nat :=
  (PassState.initial.stepsFor f Kind.isOfTables l).map fun x => x.2.rows

/-- What is to be seen of the open lists after each list tag or plain item of a run. -/
def listViews (f : Features) (l : List Tag) : List View :=
  (PassState.initial.stepsFor f Kind.isOfLists l).map fun x => x.2.lists.view

def finalRows (l : List Tag) : Nat :=
  (PassState.initial.after l).rows

def finalView (l : List Tag) : View :=
  (PassState.initial.after l).lists.view

/-- The text that a new pass emits for a tag behind some others. -/
def textBehind (f : Features) (l : List Tag) (t : Tag) : List Char :=
  ((PassState.initial.after l).replace f t).1

/-- In a pass, tables and lists have nothing to do with each other. -/
structure RecordsApart (f : Features) : Prop where
  tables : ∀ l l' : List Tag,
    (l.filter (·.kind.isOfTables)).map Tag.kind = (l'.filter (·.kind.isOfTables)).map Tag.kind →
    textsFor f (· = .rowOpen) l = textsFor f (· = .rowOpen) l' ∧
      rowCounts f l = rowCounts f l' ∧ finalRows l = finalRows l'
  lists : ∀ l l' : List Tag, l.filter (·.kind.isOfLists) = l'.filter (·.kind.isOfLists) →
    textsFor f Kind.isPlainItem l = textsFor f Kind.isPlainItem l' ∧
      listViews f l = listViews f l' ∧ finalView l = finalView l'
  others : ∀ t : Tag, t.kind ≠ .rowOpen → t.kind.isPlainItem = false →
    ∀ g st st', (PassState.replace f st t).1 = (PassState.replace g st' t).1
  /-- Without list tags and plain items put in, only rows may be emitted otherwise behind. -/
  listsKept : ∀ a b c : List Tag, (∀ t ∈ b, t.kind.isOfLists = false) →
    finalView (a ++ b ++ c) = finalView (a ++ c) ∧
      ∀ t : Tag, t.kind ≠ .rowOpen → textBehind f (a ++ b ++ c) t = textBehind f (a ++ c) t
  /-- Without tags of tables put in, only plain items may be emitted otherwise behind. -/
  tablesKept : ∀ a b c : List Tag, (∀ t ∈ b, t.kind.isOfTables = false) →
    finalRows (a ++ b ++ c) = finalRows (a ++ c) ∧
      ∀ t : Tag, t.kind.isPlainItem = false →
        textBehind f (a ++ b ++ c) t = textBehind f (a ++ c) t

/-- Whatever tags a new pass is given, tables and lists have nothing to do with each other. -/
theorem tables_and_lists_apart (f : Features) : RecordsApart f where
  tables l l' h := by
    have hn : tableRecord.needed l = tableRecord.needed l' := by
      have := congrArg (List.map fun k => (⟨k, []⟩ : Tag)) h
      rwa [List.map_map, List.map_map] at this
    exact ⟨Record.text_stepsFor_congr hn _, Record.held_stepsFor_congr hn _,
      Record.held_after_congr hn _⟩
  lists l l' h := by
    have hn : listRecord.needed l = listRecord.needed l' := congrArg (List.map id) h
    refine ⟨Record.text_stepsFor_congr hn _, ?_,
      congrArg ListNesting.view (Record.held_after_congr hn _)⟩
    have hheld := congrArg (List.map ListNesting.view)
      (Record.held_stepsFor_congr (f := f) hn PassState.initial)
    rwa [List.map_map, List.map_map] at hheld
  others t hr hp g st st' := replace_of_neither hr hp f g st st'
  listsKept a b c hb := by
    have hheld := Record.held_after_insert (r := listRecord) hb a c .initial
    refine ⟨congrArg ListNesting.view hheld, fun t hr => ?_⟩
    cases hp : t.kind.isPlainItem with
    | false => exact replace_of_neither hr hp f f _ _
    | true => exact replace_plainItem_congr f hheld hp
  tablesKept a b c hb := by
    have hheld := Record.held_after_insert (r := tableRecord) hb a c .initial
    refine ⟨hheld, fun t hp => ?_⟩
    by_cases hr : t.kind = .rowOpen
    · exact (tableRecord.replace_strip f _ _ t (decide_eq_true hr) hheld).trans
        (tableRecord.replace_strip f _ _ t (decide_eq_true hr) rfl).symm
    · exact replace_of_neither hr hp f f _ _

/-- The tags of a table and then those of a list. -/
def tableThenList : List Tag :=
  [⟨.tableOpen, "<table>".toList⟩, ⟨.rowOpen, "<tr>".toList⟩, ⟨.rowOpen, "<tr>".toList⟩,
    ⟨.unorderedOpen, "<ul>".toList⟩, ⟨.itemOpen, "<li>".toList⟩]

/-- The same tags mixed up and a rule among them, where those of the table have lost their texts. -/
def tableInList : List Tag :=
  [⟨.unorderedOpen, "<ul>".toList⟩, ⟨.tableOpen, []⟩, ⟨.rowOpen, []⟩, ⟨.itemOpen, "<li>".toList⟩,
    ⟨.rule, "<hr/>".toList⟩, ⟨.rowOpen, []⟩]

/-- Rows and items of the one run come out as those of the other. -/
theorem tables_and_lists_apart_mixed :
    (tableThenList.filter (·.kind.isOfTables)).map Tag.kind =
      (tableInList.filter (·.kind.isOfTables)).map Tag.kind ∧
    tableThenList.filter (·.kind.isOfLists) = tableInList.filter (·.kind.isOfLists) ∧
    textsFor ⟨false, true⟩ (· = .rowOpen) tableInList =
      ["<tr class=\"first-child\">".toList, "<tr class=\"odd-child\">".toList] ∧
    textsFor ⟨false, true⟩ Kind.isPlainItem tableInList =
      [(itemOf "bullet" ++ bulletBox).toList] := by
  have htags : (tableThenList.filter (·.kind.isOfTables)).map Tag.kind =
      (tableInList.filter (·.kind.isOfTables)).map Tag.kind := by decide
  have hlists : tableThenList.filter (·.kind.isOfLists) =
      tableInList.filter (·.kind.isOfLists) := by decide
  have h := tables_and_lists_apart ⟨false, true⟩
  exact ⟨htags, hlists, (h.tables _ _ htags).1.symm.trans (by decide +kernel),
    (h.lists _ _ hlists).1.symm.trans (by decide +kernel)⟩

end MarkdownPreview.Markup
