import MarkdownPreview.Markup.Vocabulary

/-!
# The grammar of the vocabulary

A shape is read in two ways. `split?` cuts what it finds off the start of a text, greedily and
without ever going back; `Describes` says which texts it stands for. For the shapes of the
vocabulary the two agree, because a gap or an optional space is always followed by a word that
cannot begin with a blank.

What the scanner needs to know of its vocabulary is checked once, on the shapes:

* `Spelling.take?_eq_some_iff`: a spelling finds exactly the texts of its shape.
* `length_le_of_before`: of two spellings that find a text at one place, the earlier one in order of
  priority finds the longer text.
* `Spelling.take?_inside`: no spelling finds anything inside a text that a spelling found.
* `getLast?_of_describes`: no text that is found ends in a blank.
* `Spelling.take?_of_clash`: a spelling whose first word clashes with the start of a text finds
  nothing there.
-/
namespace MarkdownPreview.Markup

open Text (isAsciiBlank)

/-! ## Letters and blanks -/

/-- A character is its own small form, or it is one of the 26 capitals. -/
theorem smallLetter_cases (c : Char) : smallLetter c = c ∨
    ∃ n, n ≤ 90 ∧ 65 ≤ n ∧ c = Char.ofNat n ∧ smallLetter c = Char.ofNat (n + 32) := by
  by_cases hc : 'A' ≤ c ∧ c ≤ 'Z'
  · exact .inr ⟨c.toNat, hc.2, hc.1, (Char.ofNat_toNat c).symm, if_pos hc⟩
  · exact .inl (if_neg hc)

theorem isAsciiBlank_smallLetter (c : Char) : isAsciiBlank (smallLetter c) = isAsciiBlank c := by
  rcases smallLetter_cases c with hc | ⟨n, h2, h1, hc, hn⟩
  · rw [hc]
  · have key : ∀ n, n ≤ 90 → 65 ≤ n →
        isAsciiBlank (Char.ofNat (n + 32)) = isAsciiBlank (Char.ofNat n) := by decide
    rw [hn, key n h2 h1, ← hc]

/-! ## What a shape stands for -/

/-- The texts that a piece stands for. -/
def Piece.Describes : Piece → List Char → Prop
  | .word w, a => a.map smallLetter = w
  | .gap, a => ∀ c ∈ a, isAsciiBlank c = true
  | .space, a => a = [] ∨ a = [' ']

/-- The texts that a shape stands for: one part for each piece, in turn. -/
def Describes : List Piece → List Char → Prop
  | [], a => a = []
  | p :: ps, a => ∃ b c, a = b ++ c ∧ p.Describes b ∧ Describes ps c

theorem Piece.describes_of_split? {p : Piece} {s a r : List Char}
    (h : p.split? s = some (a, r)) : p.Describes a := by
  cases p with
  | word w =>
    obtain ⟨hw, rfl, -⟩ := Piece.split?_word_eq_some.1 h
    exact hw
  | gap =>
    cases h
    exact List.all_eq_true.1 List.all_takeWhile
  | space =>
    unfold Piece.split? at h
    split at h
    · rename_i he; cases he
    · rename_i he; cases he
    · cases h; exact .inr rfl
    · cases h; exact .inl rfl

theorem describes_of_split? {ps : List Piece} {s a r : List Char}
    (h : split? ps s = some (a, r)) : Describes ps a := by
  induction ps generalizing s a r with
  | nil => cases h; rfl
  | cons p ps ih =>
    obtain ⟨b, t, c, hb, hc, rfl⟩ := split?_cons_eq_some.1 h
    exact ⟨b, c, rfl, Piece.describes_of_split? hb, ih hc⟩

/-- Whether no blank can follow a gap or an optional space. -/
def isDeterminate : List Piece → Bool
  | [] => true
  | .word _ :: ps => isDeterminate ps
  | .gap :: ps => startsSolid ps && isDeterminate ps
  | .space :: ps => startsSolid ps && isDeterminate ps
where
  startsSolid : List Piece → Bool
    | .word (c :: _) :: _ => !isAsciiBlank c
    | _ => false

theorem solid_of_describes {ps : List Piece} {c : List Char}
    (hs : isDeterminate.startsSolid ps = true) (h : Describes ps c) :
    ∃ d r, c = d :: r ∧ isAsciiBlank d = false := by
  unfold isDeterminate.startsSolid at hs
  split at hs
  · rename_i e w qs
    obtain ⟨b, t, rfl, hb, -⟩ := h
    cases b with
    | nil => simp [Piece.Describes] at hb
    | cons d b =>
      simp only [Piece.Describes, List.map_cons, List.cons.injEq] at hb
      refine ⟨d, b ++ t, rfl, ?_⟩
      rw [← isAsciiBlank_smallLetter, hb.1]
      simpa using hs
  · cases hs

theorem split?_of_describes {ps : List Piece} (hd : isDeterminate ps = true) {a : List Char}
    (h : Describes ps a) (r : List Char) : split? ps (a ++ r) = some (a, r) := by
  induction ps generalizing a with
  | nil => cases h; rfl
  | cons p ps ih =>
    obtain ⟨b, c, rfl, hb, hc⟩ := h
    rw [List.append_assoc, split?_cons_eq_some]
    cases p with
    | word w =>
      refine ⟨b, c ++ r, c, ?_, ih hd hc, rfl⟩
      have hl : w.length = b.length := by rw [← hb, List.length_map]
      exact Piece.split?_word_eq_some.2 (by simp [hl]; exact hb)
    | gap =>
      simp only [isDeterminate, Bool.and_eq_true] at hd
      obtain ⟨d, t, rfl, hblank⟩ := solid_of_describes hd.1 hc
      refine ⟨b, d :: t ++ r, d :: t, ?_, ih hd.2 hc, rfl⟩
      simp only [Piece.split?, Option.some.injEq, Prod.mk.injEq]
      rw [List.takeWhile_append_of_pos hb, List.dropWhile_append_of_pos hb]
      simp [hblank]
    | space =>
      simp only [isDeterminate, Bool.and_eq_true] at hd
      obtain ⟨d, t, rfl, hblank⟩ := solid_of_describes hd.1 hc
      refine ⟨b, d :: t ++ r, d :: t, ?_, ih hd.2 hc, rfl⟩
      rcases hb with rfl | rfl
      · have : d ≠ ' ' := by rintro rfl; exact absurd hblank (by decide)
        simp [Piece.split?, this]
      · rfl

theorem isDeterminate_of_mem_vocabulary :
    ∀ sp ∈ vocabulary, isDeterminate sp.shape = true := by decide

/-- A spelling finds exactly the texts of its shape. -/
theorem Spelling.take?_eq_some_iff {sp : Spelling} (hsp : sp ∈ vocabulary) {s a : List Char} :
    sp.take? s = some a ↔ a <+: s ∧ Describes sp.shape a := by
  constructor
  · intro h
    obtain ⟨⟨b, r⟩, hb, rfl⟩ := Option.map_eq_some_iff.1 h
    exact ⟨⟨r, split?_append hb⟩, describes_of_split? hb⟩
  · rintro ⟨⟨r, rfl⟩, hd⟩
    rw [Spelling.take?, split?_of_describes (isDeterminate_of_mem_vocabulary sp hsp) hd]
    rfl

/-! ## The earlier spelling finds the longer text -/

/-- A shape with its words taken apart into single letters. -/
def letters (ps : List Piece) : List Piece :=
  ps.flatMap fun
    | .word w => w.map fun c => .word [c]
    | p => [p]

theorem split?_word_nil (ps : List Piece) (s : List Char) :
    split? (.word [] :: ps) s = split? ps s := by
  simp [split?, Piece.split?]

theorem split?_word_cons (c : Char) (w : List Char) (ps : List Piece) (s : List Char) :
    split? (.word [c] :: .word w :: ps) s = split? (.word (c :: w) :: ps) s := by
  cases s with
  | nil => simp [split?, Piece.split?]
  | cons d s =>
    by_cases hd : smallLetter d = c
    · by_cases hw : (s.map smallLetter).take w.length = w <;>
        simp [split?, Piece.split?, hd, hw, Option.map_map, Function.comp_def]
    · simp [split?, Piece.split?, hd]

theorem split?_letters (ps : List Piece) (s : List Char) : split? (letters ps) s = split? ps s := by
  induction ps generalizing s with
  | nil => rfl
  | cons p ps ih =>
    cases p with
    | word w =>
      induction w generalizing s with
      | nil => rw [split?_word_nil, ← ih]; rfl
      | cons c w ihw =>
        rw [← split?_word_cons, split?]
        have key : letters (.word (c :: w) :: ps) = .word [c] :: letters (.word w :: ps) := rfl
        rw [key, split?]
        simp only [ihw]
    | gap =>
      simp only [letters, List.flatMap_cons, List.singleton_append, split?] at ih ⊢
      simp only [ih]
    | space =>
      simp only [letters, List.flatMap_cons, List.singleton_append, split?] at ih ⊢
      simp only [ih]

/-- Whether the first shape finds at least as much as the second one wherever both find something.
Two letters that differ are never found at one place. -/
def covers : List Piece → List Piece → Bool
  | _, [] => true
  | .word v :: ps, .word w :: qs => v.length == w.length && (v != w || covers ps qs)
  | .gap :: ps, .gap :: qs => covers ps qs
  | .gap :: ps, .word (d :: w) :: qs => !isAsciiBlank d && covers ps (.word (d :: w) :: qs)
  | _, _ => false

theorem length_le_of_covers {ps qs : List Piece} (hc : covers ps qs = true) {s a r b t : List Char}
    (ha : split? ps s = some (a, r)) (hb : split? qs s = some (b, t)) : b.length ≤ a.length := by
  induction ps generalizing qs s a r b t with
  | nil =>
    unfold covers at hc
    split at hc <;> simp_all [split?]
  | cons p ps ih =>
    obtain ⟨a₁, u, a₂, hp, hps, rfl⟩ := split?_cons_eq_some.1 ha
    unfold covers at hc
    split at hc
    · cases hb; exact Nat.zero_le _
    · rename_i v _ w qs he
      cases he
      simp only [Bool.and_eq_true, Bool.or_eq_true, beq_iff_eq, bne_iff_ne] at hc
      obtain ⟨b₁, u', b₂, hq, hqs, rfl⟩ := split?_cons_eq_some.1 hb
      obtain ⟨hv, rfl, rfl⟩ := Piece.split?_word_eq_some.1 hp
      obtain ⟨hw, rfl, rfl⟩ := Piece.split?_word_eq_some.1 hq
      rw [hc.1] at hv
      have hvw : covers ps qs = true := hc.2.resolve_left (not_not_intro (hv.symm.trans hw))
      rw [← hc.1] at hqs
      have := ih hvw hps hqs
      simp only [List.length_append, List.length_take]
      omega
    · rename_i qs he
      cases he
      obtain ⟨b₁, u', b₂, hq, hqs, rfl⟩ := split?_cons_eq_some.1 hb
      cases hp
      cases hq
      have := ih hc hps hqs
      simp only [List.length_append]
      omega
    · rename_i d w qs he
      cases he
      simp only [Bool.and_eq_true, Bool.not_eq_true'] at hc
      -- the second shape begins with a solid letter, so the gap is empty here
      have hs : s.dropWhile isAsciiBlank = s := by
        obtain ⟨e, t', rfl, he⟩ := solid_of_describes
          (by simp [isDeterminate.startsSolid, hc.1]) (describes_of_split? hb)
        rw [← split?_append hb]
        simp [he]
      cases hp
      rw [hs] at hps
      have := ih hc.2 hps hb
      simp only [List.length_append]
      omega
    · cases hc

theorem covers_vocabulary : vocabulary.Pairwise fun sp other =>
    covers (letters sp.shape) (letters other.shape) = true := by decide

theorem mem_vocabulary_of_mem_active {f : Features} {sp : Spelling} (h : sp ∈ active f) :
    sp ∈ vocabulary :=
  (List.mem_filter.1 h).1

/-- Of two spellings that find a text at one place, the earlier one finds the longer text. -/
theorem length_le_of_before {f : Features} {before after : List Spelling} {sp other : Spelling}
    (h : active f = before ++ sp :: after) (ho : other ∈ after) {s a b : List Char}
    (ha : sp.take? s = some a) (hb : other.take? s = some b) : b.length ≤ a.length := by
  have hp : (active f).Pairwise fun sp other =>
      covers (letters sp.shape) (letters other.shape) = true :=
    covers_vocabulary.sublist List.filter_sublist
  rw [h, List.pairwise_append] at hp
  have hc := (List.pairwise_cons.1 hp.2.1).1 other ho
  obtain ⟨⟨a', r⟩, ha', rfl⟩ := Option.map_eq_some_iff.1 ha
  obtain ⟨⟨b', t⟩, hb', rfl⟩ := Option.map_eq_some_iff.1 hb
  rw [← split?_letters] at ha' hb'
  exact length_le_of_covers hc ha' hb'

/-! ## Nothing is found inside a tag -/

/-- Whether every angle bracket that opens something opens a paragraph. -/
def opensOnlyParagraphs : List Char → Bool
  | [] => true
  | c :: r => (c != '<' || ['p', '>'].isPrefixOf r) && opensOnlyParagraphs r

theorem opensOnlyParagraphs_append {a b : List Char} (ha : opensOnlyParagraphs a = true)
    (hb : opensOnlyParagraphs b = true) : opensOnlyParagraphs (a ++ b) = true := by
  induction a with
  | nil => exact hb
  | cons c r ih =>
    simp only [opensOnlyParagraphs, Bool.and_eq_true, Bool.or_eq_true] at ha
    simp only [List.cons_append, opensOnlyParagraphs, Bool.and_eq_true, Bool.or_eq_true]
    refine ⟨ha.1.imp_right fun hp => ?_, ih ha.2⟩
    rw [List.isPrefixOf_iff_prefix] at hp ⊢
    exact hp.trans (List.prefix_append r b)

theorem paragraph_of_opensOnlyParagraphs {a b : List Char}
    (h : opensOnlyParagraphs (a ++ '<' :: b) = true) : ['p', '>'] <+: b := by
  induction a with
  | nil =>
    simp only [List.nil_append, opensOnlyParagraphs, Bool.and_eq_true] at h
    exact List.isPrefixOf_iff_prefix.1 (by simpa using h.1)
  | cons c r ih =>
    simp only [List.cons_append, opensOnlyParagraphs, Bool.and_eq_true] at h
    exact ih h.2

/-- Whether a piece stands only for texts whose angle brackets open paragraphs. -/
def Piece.opensOnlyParagraphs : Piece → Bool
  | .word w => Markup.opensOnlyParagraphs w
  | _ => true

theorem opensOnlyParagraphs_of_blank {a : List Char} (h : ∀ c ∈ a, isAsciiBlank c = true) :
    opensOnlyParagraphs (a.map smallLetter) = true := by
  induction a with
  | nil => rfl
  | cons c r ih =>
    simp only [List.forall_mem_cons] at h
    have hc : smallLetter c ≠ '<' := by
      intro he
      have := h.1
      rw [← isAsciiBlank_smallLetter, he] at this
      exact absurd this (by decide)
    simp [opensOnlyParagraphs, hc, ih h.2]

theorem opensOnlyParagraphs_of_describes {ps : List Piece} {a : List Char}
    (hp : ps.all Piece.opensOnlyParagraphs = true) (h : Describes ps a) :
    opensOnlyParagraphs (a.map smallLetter) = true := by
  induction ps generalizing a with
  | nil => cases h; rfl
  | cons p ps ih =>
    obtain ⟨b, c, rfl, hb, hc⟩ := h
    simp only [List.all_cons, Bool.and_eq_true] at hp
    rw [List.map_append]
    refine opensOnlyParagraphs_append ?_ (ih hp.2 hc)
    cases p with
    | word w => exact hb ▸ hp.1
    | gap => exact opensOnlyParagraphs_of_blank hb
    | space => rcases hb with rfl | rfl <;> decide

/-- Whether a shape opens a tag that is no paragraph, and after it only paragraphs. -/
def Spelling.opensOneTag (sp : Spelling) : Bool :=
  match sp.shape with
  | .word ('<' :: c :: w) :: ps =>
    c != 'p' && opensOnlyParagraphs (c :: w) && ps.all Piece.opensOnlyParagraphs
  | _ => false

theorem opensOneTag_of_mem_vocabulary : ∀ sp ∈ vocabulary, sp.opensOneTag = true := by decide

theorem Spelling.eq_cons_of_describes {sp : Spelling} (hsp : sp ∈ vocabulary) {a : List Char}
    (h : Describes sp.shape a) : ∃ c r, a = '<' :: c :: r ∧ smallLetter c ≠ 'p' ∧
      opensOnlyParagraphs ((c :: r).map smallLetter) = true := by
  have ho := opensOneTag_of_mem_vocabulary sp hsp
  unfold Spelling.opensOneTag at ho
  split at ho
  · rename_i d w ps hsh
    simp only [Bool.and_eq_true, bne_iff_ne] at ho
    obtain ⟨⟨hd, hw⟩, hps⟩ := ho
    rw [hsh] at h
    obtain ⟨b, r, rfl, hb, hr⟩ := h
    obtain ⟨e, b, rfl, he, hb⟩ := List.map_eq_cons_iff.1 hb
    obtain ⟨c, b, rfl, hc, rfl⟩ := List.map_eq_cons_iff.1 hb
    obtain rfl := smallLetter_eq_angle he
    refine ⟨c, b ++ r, rfl, hc ▸ hd, ?_⟩
    rw [← List.cons_append, List.map_append, List.map_cons, hc]
    exact opensOnlyParagraphs_append hw (opensOnlyParagraphs_of_describes hps hr)
  · cases ho

/-- A bracket inside a text that is found opens a paragraph. -/
theorem Spelling.paragraph_of_bracket {sp : Spelling} (hsp : sp ∈ vocabulary) {a b : List Char}
    (h : Describes sp.shape (a ++ '<' :: b)) (ha : a ≠ []) : ['p', '>'] <+: b.map smallLetter := by
  obtain ⟨c, r, he, -, hr⟩ := Spelling.eq_cons_of_describes hsp h
  cases a with
  | nil => exact absurd rfl ha
  | cons d a =>
    have hr' : a ++ '<' :: b = c :: r := (List.cons.inj he).2
    rw [← hr', List.map_append, List.map_cons] at hr
    exact paragraph_of_opensOnlyParagraphs hr

/-- Inside a text that a spelling found, a bracket stands before the letter of a paragraph. -/
theorem Spelling.paragraph_inside {sp : Spelling} (hsp : sp ∈ vocabulary) {s a : List Char}
    (h : sp.take? s = some a) {k : Nat} (hk : 0 < k) (hl : k < a.length) {d : Char} {r : List Char}
    (hd : s.drop k = '<' :: d :: r) : smallLetter d = 'p' := by
  obtain ⟨⟨t, rfl⟩, ha⟩ := (Spelling.take?_eq_some_iff hsp).1 h
  rw [List.drop_append_of_le_length (Nat.le_of_lt hl), List.drop_eq_getElem_cons hl,
    List.cons_append] at hd
  have hc : a[k] = '<' := (List.cons.inj hd).1
  have hr : a.drop (k + 1) ++ t = d :: r := (List.cons.inj hd).2
  have hne : a.take k ≠ [] := by
    intro he
    have := congrArg List.length he
    simp only [List.length_take, List.length_nil] at this
    omega
  rw [← List.take_append_drop k a, List.drop_eq_getElem_cons hl, hc] at ha
  obtain ⟨z, hz⟩ := Spelling.paragraph_of_bracket hsp ha hne
  cases hy : a.drop (k + 1) with
  | nil => rw [hy] at hz; cases hz
  | cons e y =>
    rw [hy] at hz hr
    simp only [List.cons_append, List.map_cons, List.cons.injEq] at hz hr
    exact hr.1 ▸ hz.1.symm

/-- No spelling finds anything inside a text that a spelling found. -/
theorem Spelling.take?_inside {sp other : Spelling} (hsp : sp ∈ vocabulary)
    (ho : other ∈ vocabulary) {s a : List Char} (h : sp.take? s = some a) {k : Nat} (hk : 0 < k)
    (hl : k < a.length) : other.take? (s.drop k) = none := by
  cases hb : other.take? (s.drop k) with
  | none => rfl
  | some b =>
    obtain ⟨⟨u, hu⟩, hdb⟩ := (Spelling.take?_eq_some_iff ho).1 hb
    obtain ⟨d, v, rfl, hd, -⟩ := Spelling.eq_cons_of_describes ho hdb
    exact absurd (Spelling.paragraph_inside hsp h hk hl hu.symm) hd

/-! ## The end of a tag -/

/-- Whether a shape ends in a word whose last letter is no blank. -/
def endsSolid : List Piece → Bool
  | [] => false
  | [.word w] => w.getLast?.any fun c => !isAsciiBlank c
  | _ :: ps => endsSolid ps

theorem endsSolid_of_mem_vocabulary : ∀ sp ∈ vocabulary, endsSolid sp.shape = true := by decide

theorem getLast?_of_describes {ps : List Piece} (hs : endsSolid ps = true) {a : List Char}
    (h : Describes ps a) : ∃ c, a.getLast? = some c ∧ isAsciiBlank c = false := by
  induction ps generalizing a with
  | nil => cases hs
  | cons p ps ih =>
    obtain ⟨b, c, rfl, hb, hc⟩ := h
    unfold endsSolid at hs
    split at hs
    · rename_i he; cases he
    · rename_i w he
      cases he
      cases hc
      rw [← hb, List.getLast?_map, Option.any_map, Option.any_eq_true] at hs
      obtain ⟨d, hd, hsolid⟩ := hs
      refine ⟨d, by rw [List.append_nil]; exact hd, ?_⟩
      rw [← isAsciiBlank_smallLetter]
      simpa using hsolid
    · rename_i he
      cases he
      obtain ⟨d, hd, hsolid⟩ := ih hs hc
      exact ⟨d, by rw [List.getLast?_append, hd]; rfl, hsolid⟩

/-! ## Clashes -/

/-- Whether the first word of a spelling and a text differ at a place that both have. -/
def Spelling.clashes (sp : Spelling) (u : List Char) : Bool :=
  match sp.shape with
  | .word w :: _ => !((u.take w.length).map smallLetter).isPrefixOf w
  | _ => false

theorem Spelling.clashes_of_prefix {sp : Spelling} {u s : List Char} (hc : sp.clashes u = true)
    (hu : u <+: s) : sp.clashes s = true := by
  unfold Spelling.clashes at hc ⊢
  split at hc
  · rename_i w ps _
    obtain ⟨v, rfl⟩ := hu
    rw [Bool.not_eq_true'] at hc ⊢
    rw [← Bool.not_eq_true, List.isPrefixOf_iff_prefix] at hc ⊢
    rw [List.take_append, List.map_append]
    exact fun h => hc ((List.prefix_append ..).trans h)
  · cases hc

/-- What a spelling finds begins with its first word. -/
theorem Spelling.firstWord_of_take? {sp : Spelling} {w : List Char} {ps : List Piece}
    (hshape : sp.shape = .word w :: ps) {s a : List Char} (h : sp.take? s = some a) :
    (s.take w.length).map smallLetter = w := by
  obtain ⟨⟨b, r⟩, hb, rfl⟩ := Option.map_eq_some_iff.1 h
  rw [hshape] at hb
  obtain ⟨b', t, c, hb', -, -⟩ := split?_cons_eq_some.1 hb
  exact (Piece.split?_word_eq_some.1 hb').1

/-- A spelling finds nothing in a text whose start it clashes with. -/
theorem Spelling.take?_of_clash {sp : Spelling} {u s : List Char} (hc : sp.clashes u = true)
    (hu : u <+: s) : sp.take? s = none := by
  cases h : sp.take? s with
  | none => rfl
  | some a =>
    exfalso
    unfold Spelling.clashes at hc
    split at hc
    · rename_i w ps hshape
      have hw := Spelling.firstWord_of_take? hshape h
      obtain ⟨v, rfl⟩ := hu
      rw [List.take_append, List.map_append] at hw
      have hp : ((u.take w.length).map smallLetter).isPrefixOf w = true :=
        List.isPrefixOf_iff_prefix.2 ⟨_, hw⟩
      rw [hp] at hc
      cases hc
    · cases hc

end MarkdownPreview.Markup
