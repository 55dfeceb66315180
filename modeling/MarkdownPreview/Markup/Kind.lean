import MarkdownPreview.Text.Quoted

/-!
# Kinds of tokens

The converter writes a small, fixed vocabulary of tags. `Kind` names what a recognised piece of it
is, and `Kind.name` is the word under which it is reported.

* `ofName?_name`: every kind is found again under its name.
-/
namespace MarkdownPreview.Markup

/-- What a recognised tag is. `other` is a spelling that resembles a known one and is left alone. -/
inductive Kind where
  | tableOpen
  | theadOpen
  | tbodyOpen
  | rowOpen
  | rule
  | delOpen
  | delClose
  | paraClose
  | orderedOpen
  | orderedClose
  | unorderedOpen
  | unorderedClose
  | itemOpen
  | itemChecked
  | itemUnchecked
  | taskItem
  | itemPara
  | itemParaChecked
  | itemParaUnchecked
  | taskItemPara
  | other
  deriving DecidableEq, Repr

namespace Kind

/-- The word under which a kind is reported. -/
def name : Kind → String
  | tableOpen => "table_open"
  | theadOpen => "thead_open"
  | tbodyOpen => "tbody_open"
  | rowOpen => "row_open"
  | rule => "rule"
  | delOpen => "del_open"
  | delClose => "del_close"
  | paraClose => "para_close"
  | orderedOpen => "ordered_open"
  | orderedClose => "ordered_close"
  | unorderedOpen => "unordered_open"
  | unorderedClose => "unordered_close"
  | itemOpen => "item_open"
  | itemChecked => "item_checked"
  | itemUnchecked => "item_unchecked"
  | taskItem => "task_item"
  | itemPara => "item_para"
  | itemParaChecked => "item_para_checked"
  | itemParaUnchecked => "item_para_unchecked"
  | taskItemPara => "task_item_para"
  | other => "other"

/-- Every kind once. -/
def all : List Kind :=
  [tableOpen, theadOpen, tbodyOpen, rowOpen, rule, delOpen, delClose, paraClose, orderedOpen,
    orderedClose, unorderedOpen, unorderedClose, itemOpen, itemChecked, itemUnchecked, taskItem,
    itemPara, itemParaChecked, itemParaUnchecked, taskItemPara, other]

def ofName? (s : String) : Option Kind :=
  all.find? (·.name = s)

/-- What is said of a word that names no kind. -/
def unknownMessage (s : String) : String :=
  String.ofList (Text.quoted s.toList) ++ " is not a valid TokenKind"

theorem mem_all (k : Kind) : k ∈ all := by cases k <;> decide

theorem ofName?_name (k : Kind) : ofName? k.name = some k := by cases k <;> decide

end Kind

end MarkdownPreview.Markup
