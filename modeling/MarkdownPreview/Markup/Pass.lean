import MarkdownPreview.Markup.ListNesting
import MarkdownPreview.Markup.Token

/-!
# The preview pass

One pass over a converted document adds what the preview's stylesheet hooks into: classes on table
rows, a box for a rule, a span for struck text, check boxes for tasks, check-box bullets for items
of bulleted lists, and classes on items whose text starts a paragraph. Tags are replaced one by one
(`PassState.replace`), everything between them is copied, and the result is put into the preview's
body (`transform`).

The pass keeps two independent records: the number of rows since the last table opened, and the open
lists.

* `run_append`: a pass over two texts in turn goes on in the state that the first one left.
* `replace_other`: what is not recognised is copied and leaves no trace.
-/
namespace MarkdownPreview.Markup

/-! ## Replacement texts -/

def bodyOpen : String := "<body class=\"multimarkdown-preview\">\n"

def bodyClose : String := "\n</body>\n"

def wrapBody (content : String) : String :=
  bodyOpen ++ content ++ bodyClose

def checkedBox : String :=
  "<input type=\"checkbox\" class=\"task-list-item-checkbox\" checked=\"checked\" " ++
    "disabled=\"disabled\">"

def uncheckedBox : String :=
  "<input type=\"checkbox\" class=\"task-list-item-checkbox\" disabled=\"disabled\">"

def bulletBox : String := "<input type=\"checkbox\" class=\"list-item-bullet\"></input>"

/-- A rule that a stylesheet can shape. -/
def ruleBox : String := "<div class=\"hr\">&nbsp;</div>"

def itemOf (cls : String) : String := "<li class=\"" ++ cls ++ "\">"

def paragraphItemOf (cls : String) : String := itemOf cls ++ "<p class=\"p\">"

/-- The class of the `n`-th row of a table: the rows after the first alternate, starting odd. -/
def rowClass (n : Nat) : String :=
  if n = 1 then "first-child" else if n % 2 = 0 then "odd-child" else "even-child"

/-! ## State -/

/-- What a pass remembers of the text before. -/
structure PassState where
  /-- The rows since the last table opened. -/
  rows : Nat
  lists : ListNesting

namespace PassState

def initial : PassState := ⟨0, .initial⟩

/-- Whether a plain item gets a bullet here. -/
def wantsBullet (f : Features) (st : PassState) : Bool :=
  f.iconBullets && st.lists.inUnordered

def next (st : PassState) : Kind → PassState
  | .tableOpen => { st with rows := 0 }
  | .rowOpen => { st with rows := st.rows + 1 }
  | .orderedOpen => { st with lists := st.lists.push .ordered }
  | .unorderedOpen => { st with lists := st.lists.push .unordered }
  | .orderedClose | .unorderedClose => { st with lists := st.lists.pop }
  | _ => st

/-- The text that takes the place of a tag, if it is not simply copied. The state is the one before
the tag. -/
def replacement? (f : Features) (st : PassState) : Kind → Option String
  | .rowOpen => some ("<tr class=\"" ++ rowClass (st.rows + 1) ++ "\">")
  | .rule => some ruleBox
  | .delOpen => some "<span class=\"del\">"
  | .delClose => some "</span>"
  | .itemOpen => if st.wantsBullet f then some (itemOf "bullet" ++ bulletBox) else none
  | .itemChecked => some (itemOf "task" ++ checkedBox)
  | .itemUnchecked => some (itemOf "task" ++ uncheckedBox)
  | .taskItem => some (itemOf "task")
  | .itemPara =>
    if st.wantsBullet f then some (paragraphItemOf "bulletp" ++ bulletBox)
    else some (paragraphItemOf "p")
  | .itemParaChecked => some (paragraphItemOf "taskp" ++ checkedBox)
  | .itemParaUnchecked => some (paragraphItemOf "taskp" ++ uncheckedBox)
  | .taskItemPara => some (paragraphItemOf "taskp")
  | _ => none

/-- The text that takes the place of a tag, and the state after it. -/
def replace (f : Features) (st : PassState) (t : Tag) : List Char × PassState :=
  (((st.replacement? f t.kind).map String.toList).getD t.text, st.next t.kind)

theorem replace_other (f : Features) (st : PassState) (text : List Char) :
    st.replace f ⟨.other, text⟩ = (text, st) := rfl

/-- The texts that take the places of some tags in turn, each with the state after it. -/
def steps (f : Features) : PassState → List Tag → List (List Char × PassState)
  | _, [] => []
  | st, t :: r => st.replace f t :: steps f (st.next t.kind) r

end PassState

/-! ## A pass over a text -/

/-- The content that a pass makes of segments, and the state it ends in. -/
def run (f : Features) : PassState → List Segment → List Char × PassState
  | st, [] => ([], st)
  | st, .plain c :: r =>
    let (out, st') := run f st r
    (c :: out, st')
  | st, .tag t :: r =>
    let (here, st₁) := st.replace f t
    let (out, st') := run f st₁ r
    (here ++ out, st')

theorem run_append (f : Features) (st : PassState) (a b : List Segment) :
    run f st (a ++ b) =
      ((run f st a).1 ++ (run f (run f st a).2 b).1, (run f (run f st a).2 b).2) := by
  induction a generalizing st with
  | nil => rfl
  | cons x a ih => cases x <;> simp [run, ih]

/-- The content that a pass makes of a text. -/
def content (f : Features) (html : List Char) : List Char :=
  (run f .initial (segments f html)).1

/-- The preview's body for a converted document. -/
def transform (f : Features) (html : String) : String :=
  wrapBody (String.ofList (content f html.toList))

end MarkdownPreview.Markup
