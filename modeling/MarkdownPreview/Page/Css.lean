/-!
# Rules of a stylesheet

A stylesheet is data: groups of rules, each rule with its selectors and declarations. Printing puts
a blank line between groups, and a rule on one line or on several, as it asks.

* `selects_iff`: a stylesheet has a rule for a selector when one of its rules names it.
-/
namespace MarkdownPreview.Page

structure CssRule where
  selectors : List String
  declarations : List (String × String)
  /-- Whether the rule is printed on one line. -/
  oneLine : Bool := false
  deriving DecidableEq, Repr

/-- Groups of rules that belong together. -/
abbrev Css := List (List CssRule)

def declarationText (d : String × String) : String :=
  d.1 ++ ": " ++ d.2 ++ ";"

def CssRule.text (r : CssRule) : String :=
  let declarations := r.declarations.map declarationText
  let body :=
    if r.oneLine then " " ++ " ".intercalate declarations ++ " "
    else "\n" ++ String.join (declarations.map fun d => "    " ++ d ++ "\n")
  ", ".intercalate r.selectors ++ " \x7b" ++ body ++ "\x7d"

def Css.text (css : Css) : String :=
  let groupText (g : List CssRule) : String := String.join (g.map fun r => r.text ++ "\n")
  "\n".intercalate (css.map groupText)

/-- Whether some rule names the selector. -/
def Css.selects (css : Css) (selector : String) : Bool :=
  css.any fun g => g.any fun r => r.selectors.contains selector

theorem selects_iff (css : Css) (selector : String) :
    css.selects selector = true ↔ ∃ g ∈ css, ∃ r ∈ g, selector ∈ r.selectors := by
  simp [Css.selects]

end MarkdownPreview.Page
