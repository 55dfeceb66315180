import MarkdownPreview.Text.Point

/-!
# Reading UTF-8

UTF-8 is read one octet at a time. Between the octets of a character the reader knows the value so
far, how many octets are owed, and the range of the next one (`Pending`); an octet outside that
range makes what came before it one malformed stretch, and is then read as a first octet. What has
been read is a list of points and malformed stretches, from which the ways to read follow: `decode?`
refuses a malformed stretch, and `decodeLossy` puts the replacement character in its place.

With `surrogates` on, an encoded surrogate is no malformed stretch but a point of its own. Only
`decodePoints?` reads in this way.

* `decodeLossy_eq_of_decode?`: on well-formed octets both read the same.
-/
namespace MarkdownPreview.Text.Utf8

/-- A character of which some octets have been read. -/
structure Pending where
  value : Nat
  /-- How many octets are still owed, at least one. -/
  owed : Nat
  /-- The least next octet. -/
  low : UInt8
  /-- The greatest next octet. -/
  high : UInt8
  deriving DecidableEq, Repr

/-- What has been read: a point, or `none` for a malformed stretch. -/
abbrev Read := Option Point

/-- A first octet. -/
def first (surrogates : Bool) (b : UInt8) : List Read × Option Pending :=
  let n := b.toNat
  let after (mark owed : Nat) (low high : UInt8) : List Read × Option Pending :=
    ([], some ⟨n - mark, owed, low, high⟩)
  if n < 0x80 then ([some (.char (Char.ofNat n))], none)
  else if n < 0xc2 then ([none], none)
  else if n < 0xe0 then after 0xc0 1 0x80 0xbf
  else if n = 0xe0 then after 0xe0 2 0xa0 0xbf
  else if n = 0xed then after 0xe0 2 0x80 (if surrogates then 0xbf else 0x9f)
  else if n < 0xf0 then after 0xe0 2 0x80 0xbf
  else if n = 0xf0 then after 0xf0 3 0x90 0xbf
  else if n < 0xf4 then after 0xf0 3 0x80 0xbf
  else if n = 0xf4 then after 0xf0 3 0x80 0x8f
  else ([none], none)

/-- The next octet. -/
def step (surrogates : Bool) : Option Pending → UInt8 → List Read × Option Pending
  | none, b => first surrogates b
  | some p, b =>
    if p.low ≤ b ∧ b ≤ p.high then
      let value := p.value * 64 + b.toNat % 64
      if p.owed ≤ 1 then ([some (.ofNat value)], none)
      else ([], some ⟨value, p.owed - 1, 0x80, 0xbf⟩)
    else
      let (read, next) := first surrogates b
      (none :: read, next)

/-- All that is read from octets, after a character begun before them. -/
def readFrom (surrogates : Bool) : Option Pending → List UInt8 → List Read
  | none, [] => []
  | some _, [] => [none]
  | p, b :: r => (step surrogates p b).1 ++ readFrom surrogates (step surrogates p b).2 r

/-- The points of octets without a malformed stretch. -/
def decodePoints? (bytes : List UInt8) : Option (List Point) :=
  (readFrom true none bytes).mapM id

/-- The characters of octets without a malformed stretch. -/
def decode? (bytes : List UInt8) : Option (List Char) :=
  ((readFrom false none bytes).mapM id).map (·.map Point.shown)

/-- The characters of octets, with the replacement character for each malformed stretch. -/
def decodeLossy (bytes : List UInt8) : List Char :=
  (readFrom false none bytes).map fun r => (r.map Point.shown).getD Point.replacement

theorem decodeLossy_eq_of_decode? {bytes : List UInt8} {cs : List Char}
    (h : decode? bytes = some cs) : decodeLossy bytes = cs := by
  have key : ∀ (l : List Read) (ps : List Point), l.mapM id = some ps →
      (l.map fun r => (r.map Point.shown).getD Point.replacement) = ps.map Point.shown := by
    intro l
    induction l with
    | nil => intro ps h; cases h; rfl
    | cons x l ih =>
      intro ps h
      cases x with
      | none => simp [List.mapM_cons] at h
      | some p =>
        cases hl : l.mapM id with
        | none => simp [List.mapM_cons, hl] at h
        | some qs =>
          simp [List.mapM_cons, hl] at h
          simp [← h, ih qs hl]
  obtain ⟨ps, hp, rfl⟩ := Option.map_eq_some_iff.1 h
  exact key _ ps hp

end MarkdownPreview.Text.Utf8
