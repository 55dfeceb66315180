import MarkdownPreview.Web.Endpoint

/-!
# Routes

Each endpoint has a path and a name, by which the site's pages refer to it.

* `route?_eq_some_iff`, `pathOf?_eq_some_iff`: both lead to their endpoint and to no other.
-/
namespace MarkdownPreview.Web

namespace Endpoint

def all : List Endpoint := [render, document]

/-- What tells an endpoint from the other one. -/
def word : Endpoint → String
  | render => "render"
  | document => "document"

def path (e : Endpoint) : String := "/preview/" ++ e.word ++ "/"

def name (e : Endpoint) : String := "preview:" ++ e.word

theorem mem_all (e : Endpoint) : e ∈ all := by
  cases e <;> simp [all]

theorem path_injective {e f : Endpoint} (h : e.path = f.path) : e = f := by
  cases e <;> cases f <;> revert h <;> decide

theorem name_injective {e f : Endpoint} (h : e.name = f.name) : e = f := by
  cases e <;> cases f <;> revert h <;> decide

end Endpoint

/-- The endpoint at a path. -/
def route? (path : String) : Option Endpoint :=
  Endpoint.all.find? fun e => e.path = path

/-- The path of the endpoint with a name. -/
def pathOf? (name : String) : Option String :=
  (Endpoint.all.find? fun e => e.name = name).map Endpoint.path

theorem route?_eq_some_iff (path : String) (e : Endpoint) :
    route? path = some e ↔ path = e.path := by
  constructor
  · intro h
    have hp := List.find?_some h
    exact (of_decide_eq_true hp).symm
  · rintro rfl
    cases e <;> rfl

theorem pathOf?_eq_some_iff (name path : String) :
    pathOf? name = some path ↔ ∃ e : Endpoint, name = e.name ∧ path = e.path := by
  constructor
  · intro h
    obtain ⟨e, he, rfl⟩ := Option.map_eq_some_iff.1 h
    have hn := List.find?_some he
    exact ⟨e, (of_decide_eq_true hn).symm, rfl⟩
  · rintro ⟨e, rfl, rfl⟩
    cases e <;> rfl

end MarkdownPreview.Web
