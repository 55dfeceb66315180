/-!
# Code points

Octets and escapes can spell a surrogate without its partner. No character corresponds to it, so a
text that may hold one is a list of points: characters and lone surrogates.

* `chars?_ofChars`: a text of characters alone is found to be one.
-/
namespace MarkdownPreview.Text

/-- A code point of a text. -/
inductive Point where
  | char (c : Char)
  /-- A surrogate without its partner, by its number. -/
  | lone (n : Nat)
  deriving DecidableEq, Repr

namespace Point

/-- The character that stands for what is none. -/
def replacement : Char := '\ufffd'

/-- The point of a number; what is no number of a character is a surrogate. -/
def ofNat (n : Nat) : Point :=
  if n.isValidChar then .char (Char.ofNat n) else .lone n

/-- A point as a character: the replacement character for a lone surrogate. -/
def shown : Point → Char
  | char c => c
  | lone _ => replacement

def isLone : Point → Bool
  | char _ => false
  | lone _ => true

/-- The place of a point in the order of all numbers. -/
def rank : Point → Nat
  | char c => 2 * c.toNat
  | lone n => 2 * n + 1

def ofChars (cs : List Char) : List Point :=
  cs.map char

def chars? : List Point → Option (List Char)
  | [] => some []
  | char c :: r => (chars? r).map (c :: ·)
  | lone _ :: _ => none

@[simp] theorem chars?_ofChars (cs : List Char) : chars? (ofChars cs) = some cs := by
  induction cs with
  | nil => rfl
  | cons c r ih => simpa [ofChars, chars?] using ih

theorem ofChars_of_chars? {ps : List Point} {cs : List Char} (h : chars? ps = some cs) :
    ofChars cs = ps := by
  induction ps generalizing cs with
  | nil =>
    cases h
    rfl
  | cons p r ih =>
    cases p with
    | lone n => cases h
    | char c =>
      obtain ⟨ds, hds, rfl⟩ := Option.map_eq_some_iff.1 h
      exact congrArg (char c :: ·) (ih hds)

/-- A text is one of characters alone if it holds no lone surrogate. -/
theorem exists_chars?_iff (ps : List Point) :
    (∃ cs, chars? ps = some cs) ↔ ∀ n, lone n ∉ ps := by
  induction ps with
  | nil => simp [chars?]
  | cons p r ih =>
    cases p with
    | lone n =>
      refine iff_of_false (by simp [chars?]) fun h => ?_
      exact h n (List.mem_cons_self ..)
    | char c =>
      simp only [chars?, Option.map_eq_some_iff, List.mem_cons, reduceCtorEq, false_or, ← ih]
      exact ⟨fun ⟨_, cs, hcs, _⟩ => ⟨cs, hcs⟩, fun ⟨cs, hcs⟩ => ⟨_, cs, hcs, rfl⟩⟩

theorem rank_injective : Function.Injective rank := by
  intro p q h
  cases p with
  | char c =>
    cases q with
    | char d =>
      simp only [rank] at h
      rw [Char.toNat_inj.1 (show c.toNat = d.toNat by omega)]
    | lone m =>
      simp only [rank] at h
      omega
  | lone n =>
    cases q with
    | char d =>
      simp only [rank] at h
      omega
    | lone m =>
      simp only [rank] at h
      rw [show n = m by omega]

/-! ## Order -/

/-- The order of texts, in which the first points that differ decide. -/
def textLe : List Point → List Point → Bool
  | [], _ => true
  | _ :: _, [] => false
  | p :: r, q :: s => p.rank < q.rank || (p = q && textLe r s)

theorem textLe_trans {s t u : List Point} (h : textLe s t = true) (h' : textLe t u = true) :
    textLe s u = true := by
  induction s generalizing t u with
  | nil => rfl
  | cons p r ih =>
    cases t with
    | nil => cases h
    | cons q r₁ =>
      cases u with
      | nil => cases h'
      | cons p₂ r₂ =>
        simp only [textLe, Bool.or_eq_true, Bool.and_eq_true, decide_eq_true_eq] at *
        rcases h with hpq | ⟨rfl, h⟩
        · rcases h' with hq | ⟨rfl, -⟩
          · exact .inl (Nat.lt_trans hpq hq)
          · exact .inl hpq
        · exact h'.imp_right fun ⟨he, ht⟩ => ⟨he, ih h ht⟩

theorem textLe_total (s t : List Point) : textLe s t = true ∨ textLe t s = true := by
  induction s generalizing t with
  | nil => exact .inl rfl
  | cons p r ih =>
    cases t with
    | nil => exact .inr rfl
    | cons q r₁ =>
      simp only [textLe, Bool.or_eq_true, Bool.and_eq_true, decide_eq_true_eq]
      rcases Nat.lt_trichotomy p.rank q.rank with hlt | he | hgt
      · exact .inl (.inl hlt)
      · obtain rfl := rank_injective he
        exact (ih r₁).imp (fun h => .inr ⟨rfl, h⟩) fun h => .inr ⟨rfl, h⟩
      · exact .inr (.inl hgt)

theorem textLe_antisymm {s t : List Point} (h : textLe s t = true) (h' : textLe t s = true) :
    s = t := by
  induction s generalizing t with
  | nil =>
    cases t with
    | nil => rfl
    | cons q r₁ => cases h'
  | cons p r ih =>
    cases t with
    | nil => cases h
    | cons q r₁ =>
      simp only [textLe, Bool.or_eq_true, Bool.and_eq_true, decide_eq_true_eq] at h h'
      rcases h with hlt | ⟨rfl, h⟩
      · rcases h' with hgt | ⟨rfl, -⟩
        · exact absurd hgt (Nat.lt_asymm hlt)
        · exact absurd hlt (Nat.lt_irrefl _)
      · rcases h' with hgt | ⟨-, h'⟩
        · exact absurd hgt (Nat.lt_irrefl _)
        · rw [ih h h']

@[simp] theorem shown_ofChars (cs : List Char) : (ofChars cs).map shown = cs := by
  induction cs with
  | nil => rfl
  | cons c r ih => simpa [ofChars, shown] using ih

end Point

end MarkdownPreview.Text
