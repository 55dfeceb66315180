import MarkdownPreview.Settings.Options

/-!
# Settings without a check

A caller may hand over the fields of settings without any check of their types and ranges. A flag
then counts by its truth, a quantity may be any number, and what is no text counts as the empty one.

* `accept_of_put`, `acceptAll_of_putAll`: what a check lets pass means the same without it.
-/
namespace MarkdownPreview.Settings

open Json (Value Fields)

/-- The settings with a new value of a field, whatever its type. A value that is no quantity leaves
a quantity as it is. -/
def Field.accept : Field → Value → Settings → Settings
  | flag _ set, v, s => set v.truthy s
  | quantity _ set, v, s =>
    match Quantity.ofValue? v with
    | some q => set q s
    | none => s
  | text _ set, .phrase p, s => set p s
  | text _ set, _, s => set "" s

/-- The settings with some fields changed. Keys without a field are passed over. -/
def acceptAll (s : Settings) : Fields → Settings
  | [] => s
  | (key, v) :: r =>
    match fieldAt? key with
    | none => acceptAll s r
    | some f => acceptAll (f.accept v s) r

theorem accept_of_put {key : String} {f : Field} {v : Value} {s s' : Settings}
    (h : f.put key v s = .ok s') : f.accept v s = s' := by
  rcases v with _ | _ | _ | _ | ⟨_ | _⟩ | _ | _ <;> cases f <;>
    simp_all [Field.put, Field.accept, Quantity.ofValue?]

theorem acceptAll_of_putAll {fs : Fields} {s s' : Settings} (h : s.putAll fs = .ok s') :
    s.acceptAll fs = s' := by
  induction fs generalizing s with
  | nil => simpa [putAll, acceptAll] using h
  | cons e r ih =>
    obtain ⟨key, v⟩ := e
    rw [putAll] at h
    rw [acceptAll]
    cases hf : fieldAt? key with
    | none =>
      rw [hf] at h
      exact ih h
    | some f =>
      rw [hf] at h
      cases hp : f.put key.shown v s with
      | error e => simp [hp] at h
      | ok s₁ =>
        simp only [hp] at h
        simp only [accept_of_put hp]
        exact ih h

end MarkdownPreview.Settings
