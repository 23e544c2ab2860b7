import TraceGraph.Proofs.Number.Written
import TraceGraph.Token.Lexer

/-!
# Reading a text piece by piece

`Lexes text tokens` says that a text is read as the given tokens, whatever line it
starts on.  Each lemma puts one piece in front of a text: a blank, a word, a
number, a string or a symbol.  A piece is read as one token when the first
character after it cannot belong to it, so every lemma but the one for blanks has
a condition on that character.
-/

namespace TraceGraph

/-- The text is read as these tokens, on whatever lines. -/
def Lexes (text : List Char) (tokens : List Token) : Prop :=
  ∀ line, ∃ placed, Lexer.scan line text = .ok placed ∧ placed.map PlacedToken.token = tokens

/-- The first character of the text, if there is one, has the property. -/
def Begins (p : Char → Prop) (text : List Char) : Prop :=
  ∀ c ∈ text.head?, p c

@[simp] theorem begins_cons {p : Char → Prop} {c : Char} {text : List Char} :
    Begins p (c :: text) ↔ p c := by
  simp [Begins]

theorem Begins.mono {p q : Char → Prop} {text : List Char} (h : Begins p text)
    (hpq : ∀ c, p c → q c) : Begins q text :=
  fun c hc => hpq c (h c hc)

/-! ## One step of the scan -/

namespace Lexer

@[simp] theorem scan_nil (line : Nat) : scan line [] = .ok [] := by
  rw [scan]
  rfl

theorem scan_of_trivia {text skipped rest : List Char} (ht : trivia? text = some (skipped, rest))
    (line : Nat) : scan line text = scan (line + skipped.count '\n') rest := by
  have hne : text.isEmpty = false := by
    cases text with
    | nil => simp [trivia?] at ht
    | cons c text => rfl
  rw [scan, hne]
  grind

theorem scan_of_lexeme {text rest : List Char} {token : Token} (ht : trivia? text = none)
    (hl : lexeme? text = some (token, rest)) (line : Nat) :
    scan line text = (scan line rest).map (⟨token, line⟩ :: ·) := by
  have hne : text.isEmpty = false := by
    cases text with
    | nil => simp [lexeme?] at hl
    | cons c text => rfl
  rw [scan, hne]
  grind

theorem scan_of_stuck {text : List Char} (hne : text ≠ []) (ht : trivia? text = none)
    (hl : lexeme? text = none) (line : Nat) :
    scan line text
      = .error (.malformed line (.unexpectedInput (String.ofList (text.take reportLength)))) := by
  rw [scan, List.isEmpty_eq_false_iff.2 hne]
  grind

end Lexer

theorem lexes_nil : Lexes [] [] :=
  fun line => ⟨[], Lexer.scan_nil line, rfl⟩

private theorem lexes_lexeme {text rest : List Char} {token : Token} {tokens : List Token}
    (ht : Lexer.trivia? text = none) (hl : Lexer.lexeme? text = some (token, rest))
    (h : Lexes rest tokens) : Lexes text (token :: tokens) := by
  intro line
  obtain ⟨placed, hscan, htokens⟩ := h line
  refine ⟨⟨token, line⟩ :: placed, ?_, by rw [List.map_cons, htokens]⟩
  rw [Lexer.scan_of_lexeme ht hl, hscan]
  rfl

/-! ## Blanks -/

theorem trivia?_cons_of_isSpace {c : Char} (hc : Lexer.isSpace c = true)
    (text : List Char) :
    Lexer.trivia? (c :: text)
      = some (c :: text.takeWhile Lexer.isSpace, text.dropWhile Lexer.isSpace) := by
  have hslash : c ≠ '/' := by
    rintro rfl
    exact absurd hc (by decide)
  rw [Lexer.trivia?, if_pos hc]
  · intro _ h
    exact absurd h hslash
  · intro _ h
    exact absurd h hslash

/-- Only the line moves over the blanks at the front. -/
private theorem scan_dropWhile_isSpace (line : Nat) (text : List Char) :
    Lexer.scan line text = Lexer.scan (line + (text.takeWhile Lexer.isSpace).count '\n')
      (text.dropWhile Lexer.isSpace) := by
  cases text with
  | nil => rfl
  | cons c text =>
    by_cases hc : Lexer.isSpace c = true
    · rw [Lexer.scan_of_trivia (trivia?_cons_of_isSpace hc text), List.takeWhile_cons_of_pos hc,
        List.dropWhile_cons_of_pos hc]
    · rw [List.takeWhile_cons_of_neg hc, List.dropWhile_cons_of_neg hc]
      rfl

/-- A blank in front changes nothing but the line. -/
theorem lexes_space {c : Char} (hc : Lexer.isSpace c = true) {text : List Char}
    {tokens : List Token} (h : Lexes text tokens) : Lexes (c :: text) tokens := by
  intro line
  obtain ⟨placed, hscan, htokens⟩ := h (line + [c].count '\n')
  refine ⟨placed, ?_, htokens⟩
  rw [scan_dropWhile_isSpace, List.takeWhile_cons_of_pos hc, List.dropWhile_cons_of_pos hc,
    ← hscan, scan_dropWhile_isSpace _ text, Nat.add_assoc, ← List.count_append]
  rfl

theorem lexes_spaces {count : Nat} {text : List Char} {tokens : List Token}
    (h : Lexes text tokens) : Lexes (List.replicate count ' ' ++ text) tokens := by
  induction count with
  | zero => exact h
  | succ count ih =>
    rw [List.replicate_succ, List.cons_append]
    exact lexes_space rfl ih

/-! ## Words -/

theorem takeWhile_append {p : Char → Bool} {front rest : List Char}
    (hfront : ∀ c ∈ front, p c = true) (hrest : Begins (p · = false) rest) :
    (front ++ rest).takeWhile p = front := by
  rw [List.takeWhile_append_of_pos hfront]
  cases rest with
  | nil => simp
  | cons c rest =>
    rw [List.takeWhile_cons_of_neg (by simp [begins_cons.1 hrest]), List.append_nil]

theorem dropWhile_append {p : Char → Bool} {front rest : List Char}
    (hfront : ∀ c ∈ front, p c = true) (hrest : Begins (p · = false) rest) :
    (front ++ rest).dropWhile p = rest := by
  rw [List.dropWhile_append_of_pos hfront]
  cases rest with
  | nil => rfl
  | cons c rest => rw [List.dropWhile_cons_of_neg (by simp [begins_cons.1 hrest])]

/-- Nothing is skipped before a character that starts no comment. -/
private theorem trivia?_eq_none {c : Char} {text : List Char} (hspace : Lexer.isSpace c = false)
    (hslash : c = '/' → Begins (fun d => d ≠ '/' ∧ d ≠ '*') text) :
    Lexer.trivia? (c :: text) = none := by
  rw [Lexer.trivia?, if_neg (by simp [hspace])]
  · rintro rest rfl rfl
    exact (begins_cons.1 (hslash rfl)).1 rfl
  · rintro rest rfl rfl
    exact (begins_cons.1 (hslash rfl)).2 rfl

/-- A property of all characters of a list, checked one by one. -/
theorem forall_mem_of_all {p : Char → Prop} [DecidablePred p] {chars : List Char}
    (h : chars.all (fun c => decide (p c)) = true) : ∀ c ∈ chars, p c := by
  simpa using h

/-- Nothing is skipped before a character of a class without blanks and without
the slash. -/
private theorem trivia?_eq_none_of_class {p : Char → Bool} {c : Char} {text : List Char}
    (hc : p c = true) (hp : ∀ d ∈ [' ', '\t', '\r', '\n', '/'], p d = false) :
    Lexer.trivia? (c :: text) = none := by
  have hne : ∀ d ∈ [' ', '\t', '\r', '\n', '/'], c ≠ d := by
    rintro d hd rfl
    rw [hp c hd] at hc
    cases hc
  refine trivia?_eq_none ?_ fun hslash => absurd hslash (hne _ (by decide))
  simp only [Lexer.isSpace, Bool.or_eq_false_iff, beq_eq_false_iff_ne]
  exact ⟨⟨⟨hne _ (by decide), hne _ (by decide)⟩, hne _ (by decide)⟩, hne _ (by decide)⟩

/-- The characters of a word. -/
structure IsWord (word : List Char) : Prop where
  ne_nil : word ≠ []
  start : Begins (Lexer.isWordStart · = true) word
  part : ∀ c ∈ word, Lexer.isWordPart c = true

/-- As much of a text as a word can hold. -/
theorem isWord_takeWhile {c : Char} (hc : Lexer.isWordStart c = true) (text : List Char) :
    IsWord (c :: text.takeWhile Lexer.isWordPart) := by
  refine ⟨by simp, begins_cons.2 hc, fun d hd => ?_⟩
  rcases List.mem_cons.1 hd with rfl | hd
  · revert hc
    simp only [Lexer.isWordStart, Lexer.isWordPart, Char.isAlphanum, Bool.or_eq_true]
    tauto
  · exact List.all_eq_true.1 List.all_takeWhile d hd

theorem isWord_of_check {word : List Char}
    (h : (word.head?.any Lexer.isWordStart && word.all Lexer.isWordPart) = true) : IsWord word := by
  cases word with
  | nil => cases h
  | cons c word =>
    rw [Bool.and_eq_true, List.all_eq_true] at h
    exact ⟨List.cons_ne_nil c word, begins_cons.2 h.1, h.2⟩

theorem lexes_word {word rest : List Char} {tokens : List Token} (hword : IsWord word)
    (hrest : Begins (Lexer.isWordPart · = false) rest) (h : Lexes rest tokens) :
    Lexes (word ++ rest) (.ofWord (String.ofList word) :: tokens) := by
  cases word with
  | nil => exact absurd rfl hword.ne_nil
  | cons c word =>
    have hstart : Lexer.isWordStart c = true := begins_cons.1 hword.start
    have hpart : ∀ d ∈ word, Lexer.isWordPart d = true :=
      fun d hd => hword.part d (List.mem_cons_of_mem _ hd)
    refine lexes_lexeme (trivia?_eq_none_of_class hstart (forall_mem_of_all (by decide))) ?_ h
    rw [List.cons_append, Lexer.lexeme?, if_pos hstart, takeWhile_append hpart hrest,
      dropWhile_append hpart hrest]

/-! ## Numbers -/

theorem isWordStart_of_isDigit {c : Char} (hc : c.isDigit = true) :
    Lexer.isWordStart c = false := by
  have hne : ∀ d : Char, d.isDigit = false → c ≠ d := by
    rintro d hd rfl
    rw [hc] at hd
    cases hd
  simp only [Char.isDigit, Bool.and_eq_true, decide_eq_true_eq, ge_iff_le,
    UInt32.le_iff_toNat_le] at hc
  simp only [Lexer.isWordStart, Char.isAlpha, Char.isUpper, Char.isLower, Bool.or_eq_false_iff,
    Bool.and_eq_false_iff, beq_eq_false_iff_ne, decide_eq_false_iff_not, ge_iff_le,
    UInt32.le_iff_toNat_le]
  have hnine : '9'.val.toNat = 57 := rfl
  have hupper : 'A'.val.toNat = 65 := rfl
  have hlower : 'a'.val.toNat = 97 := rfl
  exact ⟨⟨⟨by omega, by omega⟩, hne _ rfl⟩, hne _ rfl⟩

private theorem fraction_pointed {places rest : List Char}
    (hplaces : ∀ c ∈ places, c.isDigit = true)
    (hrest : Begins (fun c => c.isDigit = false ∧ c ≠ '.') rest) :
    Lexer.fraction (Number.pointed places ++ rest) = (places, rest) := by
  rw [Number.pointed]
  cases places with
  | nil =>
    show Lexer.fraction rest = ([], rest)
    rw [Lexer.fraction]
    rintro c text rfl
    exact absurd rfl (begins_cons.1 hrest).2
  | cons c places =>
    have hdigits : ∀ d ∈ places, d.isDigit = true :=
      fun d hd => hplaces d (List.mem_cons_of_mem _ hd)
    have hstop : Begins (Char.isDigit · = false) rest := hrest.mono fun d hd => hd.1
    rw [if_neg (by simp), List.cons_append, List.cons_append, Lexer.fraction,
      if_pos (hplaces c List.mem_cons_self), takeWhile_append hdigits hstop,
      dropWhile_append hdigits hstop]

/-- The text of a finite double without a sign is read as that double. -/
theorem lexes_number {x : Float} {rest : List Char} {tokens : List Token}
    (hx : x.toBits.toNat < Number.infinityBits)
    (hrest : Begins (fun c => c.isDigit = false ∧ c ≠ '.') rest) (h : Lexes rest tokens) :
    Lexes ((Literal.numberLayout.write x).toList ++ rest) (.number x :: tokens) := by
  obtain ⟨whole, places, htext, hne, hwhole, hplaces, hparts⟩ := Number.write_parts hx
  rw [htext, List.append_assoc]
  cases whole with
  | nil => exact absurd rfl hne
  | cons c whole =>
    have hc : c.isDigit = true := hwhole c List.mem_cons_self
    have hdigits : ∀ d ∈ whole, d.isDigit = true :=
      fun d hd => hwhole d (List.mem_cons_of_mem _ hd)
    have hstop : Begins (Char.isDigit · = false) (Number.pointed places ++ rest) := by
      rw [Number.pointed]
      split
      · exact hrest.mono fun d hd => hd.1
      · exact begins_cons.2 (by decide)
    refine lexes_lexeme (trivia?_eq_none_of_class hc (forall_mem_of_all (by decide))) ?_ h
    rw [List.cons_append, Lexer.lexeme?, if_neg (by simp [isWordStart_of_isDigit hc]), if_pos hc,
      Lexer.number, takeWhile_append hdigits hstop, dropWhile_append hdigits hstop,
      fraction_pointed hplaces hrest]
    dsimp only
    rw [hparts]

/-! ## Strings -/

/-- The characters between quotes are read back one by one. -/
private theorem stringBody?_quoted (value rest : List Char) :
    Lexer.stringBody? '\'' (value.flatMap Literal.quotedChar ++ '\'' :: rest)
      = some (value, rest) := by
  induction value with
  | nil => rfl
  | cons c value ih =>
    rw [List.flatMap_cons, List.append_assoc, Literal.quotedChar]
    split
    · rename_i hc
      obtain rfl : c = '\\' := by simpa using hc
      simp only [List.cons_append, List.nil_append, Lexer.stringBody?, ih]
      rfl
    split
    · rename_i hc
      obtain rfl : c = '\'' := by simpa using hc
      simp only [List.cons_append, List.nil_append, Lexer.stringBody?, ih]
      rfl
    split
    · rename_i hc
      obtain rfl : c = '\n' := by simpa using hc
      simp only [List.cons_append, List.nil_append, Lexer.stringBody?, ih]
      rfl
    · rename_i hbackslash hquote hfeed
      rw [List.singleton_append, Lexer.stringBody?, if_neg hquote, if_neg, ih]
      · rfl
      · simp_all
      · intro _ _ hc
        simp [hc] at hbackslash

theorem lexes_text (value : String) {rest : List Char} {tokens : List Token}
    (h : Lexes rest tokens) :
    Lexes ((Literal.text value).render.toList ++ rest) (.text value :: tokens) := by
  rw [Literal.render, String.toList_ofList, List.cons_append, List.append_assoc]
  refine lexes_lexeme (trivia?_eq_none_of_class (p := (· == '\'')) rfl
    (forall_mem_of_all (by decide))) ?_ h
  rw [Lexer.lexeme?, if_neg (by decide), if_neg (by decide), if_pos (by decide)]
  rw [List.singleton_append, stringBody?_quoted, Option.map_some]
  dsimp only
  rw [String.ofList_toList]

/-! ## Symbols -/

/-- Whether the character after the symbol would belong to a longer symbol or
make it the beginning of a comment. -/
def Symbol.extendsBy (s : Symbol) (c : Char) : Bool :=
  Symbol.longestFirst.any
      (fun longer => (s.spelling.toList ++ [c]).isPrefixOf longer.spelling.toList)
    || s = .slash && (c == '/' || c == '*')

/-- No symbol begins with one that comes before it in the list. -/
private theorem not_prefix_of_mem_takeWhile (s : Symbol) :
    ∀ earlier ∈ Symbol.longestFirst.takeWhile (· ≠ s),
      ¬earlier.spelling.toList <+: s.spelling.toList := by
  cases s <;> decide

private theorem longestFirst_eq (s : Symbol) :
    ∃ later, Symbol.longestFirst = Symbol.longestFirst.takeWhile (· ≠ s) ++ s :: later := by
  cases s <;> exact ⟨_, rfl⟩

private theorem extendsBy_of_longer {s longer : Symbol} {c : Char} {tail : List Char}
    (hmem : longer ∈ Symbol.longestFirst)
    (h : s.spelling.toList ++ c :: tail = longer.spelling.toList) : s.extendsBy c = true := by
  rw [Symbol.extendsBy, Bool.or_eq_true, List.any_eq_true]
  refine Or.inl ⟨longer, hmem, List.isPrefixOf_iff_prefix.2 ⟨tail, ?_⟩⟩
  rw [← h, List.append_assoc, List.singleton_append]

private theorem symbol?_append {s : Symbol} {rest : List Char}
    (hrest : Begins (s.extendsBy · = false) rest) :
    Lexer.symbol? (s.spelling.toList ++ rest) = some (.symbol s, rest) := by
  have hfind : (Symbol.longestFirst.find? fun t =>
      t.spelling.toList.isPrefixOf (s.spelling.toList ++ rest)) = some s := by
    obtain ⟨later, hlist⟩ := longestFirst_eq s
    rw [List.find?_eq_some_iff_append]
    refine ⟨by simp, _, later, hlist, fun earlier hmem => ?_⟩
    rw [Bool.not_eq_true', Bool.eq_false_iff]
    intro hfits
    have hfits := List.isPrefixOf_iff_prefix.1 hfits
    -- of two prefixes of one text, one is a prefix of the other
    rcases List.prefix_or_prefix_of_prefix hfits (List.prefix_append s.spelling.toList rest)
      with hshort | ⟨tail, htail⟩
    · exact not_prefix_of_mem_takeWhile s earlier hmem hshort
    · cases tail with
      | nil =>
        rw [List.append_nil] at htail
        exact not_prefix_of_mem_takeWhile s earlier hmem (htail ▸ List.prefix_refl _)
      | cons c tail =>
        rw [← htail, List.prefix_append_right_inj] at hfits
        obtain ⟨more, rfl⟩ := hfits
        have hc : s.extendsBy c = true :=
          extendsBy_of_longer ((List.takeWhile_sublist _).mem hmem) htail
        rw [begins_cons.1 hrest] at hc
        cases hc
  rw [Lexer.symbol?, hfind]
  simp

theorem spelling_eq_cons (s : Symbol) :
    ∃ c tail, s.spelling.toList = c :: tail ∧ Lexer.isSpace c = false ∧
      Lexer.isWordStart c = false ∧ c.isDigit = false ∧ c ≠ '\'' ∧ c ≠ '"' ∧
      (c = '/' → s = .slash ∧ tail = [] ∨ tail = ['=']) := by
  cases s <;> exact ⟨_, _, rfl, by decide⟩

theorem lexes_symbol (s : Symbol) {rest : List Char} {tokens : List Token}
    (hrest : Begins (s.extendsBy · = false) rest) (h : Lexes rest tokens) :
    Lexes (s.spelling.toList ++ rest) (.symbol s :: tokens) := by
  obtain ⟨c, tail, hs, hspace, hstart, hdigit, hsingle, hdouble, hslash⟩ := spelling_eq_cons s
  have hsymbol := symbol?_append hrest
  rw [hs, List.cons_append] at hsymbol ⊢
  refine lexes_lexeme (trivia?_eq_none hspace fun hc => ?_) ?_ h
  · rcases hslash hc with ⟨rfl, rfl⟩ | rfl
    · refine hrest.mono fun d hd => ?_
      constructor
      · rintro rfl
        exact absurd hd (by decide)
      · rintro rfl
        exact absurd hd (by decide)
    · exact begins_cons.2 (by decide)
  · rw [Lexer.lexeme?, if_neg (by simp [hstart]), if_neg (by simp [hdigit]),
      if_neg (by simp [hsingle, hdouble]), hsymbol]

/-! ## The tokens of a text -/

/-- A word that stands for a name: neither a keyword nor a reserved word. -/
structure IsName (name : String) : Prop where
  isWord : IsWord name.toList
  ofWord_eq : Token.ofWord name = .identifier name

/-- Whether the name or the number that a token carries has the given
property. -/
def Token.Leaf (okName : String → Prop) (okNumber : Float → Prop) : Token → Prop
  | .identifier name => okName name
  | .number x => okNumber x
  | _ => True

/-- What the tokens of a text carry: names are words, and numbers have no sign. -/
def Token.WellFormed : Token → Prop :=
  Token.Leaf IsName fun x => x.toBits.toNat ≤ Number.infinityBits

private theorem wellFormed_ofWord {word : List Char} (hword : IsWord word) :
    (Token.ofWord (String.ofList word)).WellFormed := by
  cases hof : Token.ofWord (String.ofList word) with
  | identifier name =>
    have hname : String.ofList word = name := by
      unfold Token.ofWord at hof
      split at hof
      · cases hof
      split at hof
      · cases hof
      · exact Token.identifier.inj hof
    subst hname
    exact ⟨by rwa [String.toList_ofList], hof⟩
  | number x =>
    unfold Token.ofWord at hof
    split at hof
    · cases hof
    split at hof <;> cases hof
  | _ => trivial

private theorem wellFormed_lexeme? {text rest : List Char} {token : Token}
    (h : Lexer.lexeme? text = some (token, rest)) : token.WellFormed := by
  unfold Lexer.lexeme? at h
  split at h
  · cases h
  rename_i c text
  split at h
  · rename_i hstart
    cases h
    exact wellFormed_ofWord (isWord_takeWhile hstart text)
  split at h
  · cases h
    exact Number.toBits_ofParts_le _ _ _
  split at h
  · obtain ⟨⟨values, rest'⟩, -, heq⟩ := Option.map_eq_some_iff.1 h
    cases heq
    trivial
  · obtain ⟨s, -, heq⟩ := Option.map_eq_some_iff.1 h
    cases heq
    trivial

private theorem wellFormed_scan (line : Nat) (text : List Char) {placed : List PlacedToken}
    (h : Lexer.scan line text = .ok placed) : ∀ t ∈ placed, t.token.WellFormed := by
  induction line, text using Lexer.scan.induct generalizing placed with
  | case1 line text hempty =>
    rw [List.isEmpty_iff.1 hempty, Lexer.scan_nil] at h
    cases h
    simp
  | case2 line text hempty skipped rest ht ih =>
    rw [Lexer.scan_of_trivia ht] at h
    exact ih h
  | case3 line text hempty ht token rest hl ih =>
    rw [Lexer.scan_of_lexeme ht hl] at h
    cases hscan : Lexer.scan line rest with
    | error => rw [hscan] at h; cases h
    | ok others =>
      rw [hscan] at h
      cases h
      intro t hmem
      rcases List.mem_cons.1 hmem with rfl | hmem
      · exact wellFormed_lexeme? hl
      · exact ih hscan t hmem
  | case4 line text hempty ht hl =>
    rw [Lexer.scan_of_stuck (by simpa using hempty) ht hl] at h
    cases h

/-- The names and numbers that a text is read as are well formed. -/
theorem wellFormed_of_tokenize {source : String} {placed : List PlacedToken}
    (h : tokenize source = .ok placed) : ∀ t ∈ placed, t.token.WellFormed :=
  wellFormed_scan 1 source.toList h

/-- The tokens of a text, as they can be computed. -/
theorem tokenize_eq_ok {source : String} {tokens : List PlacedToken}
    (h : (tokenize source).toOption = some tokens) : tokenize source = .ok tokens := by
  cases htokenize : tokenize source with
  | error fault =>
    rw [htokenize] at h
    cases h
  | ok others =>
    rw [htokenize] at h
    cases h
    rfl

end TraceGraph
