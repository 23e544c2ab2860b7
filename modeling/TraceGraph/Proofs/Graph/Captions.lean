import TraceGraph.Graph.Builder
import TraceGraph.Proofs.Stmt.Layout
import TraceGraph.Proofs.Stmt.Printed

/-!
# Labels of runs

A label is made from printed text, by taking keywords out of it and cutting it at
semicolons.  Where names and numbers are words with marks between them, this comes to
one line for each statement, with its whole text.

* `Label.Phrase`: words with marks between them, from which no keyword is taken.
* `Label.shown`: the lines that a text is shown as.
* `Expr.caption_render`: a printed expression is a phrase.
* `Stmt.shown_renderAt`: printed statements are shown line by line, at any depth.
* `Builder.addRun_caption`: the label of a run.
-/

namespace TraceGraph

theorem Begins.append {p : Char → Prop} {front rest : List Char} (hfront : Begins p front)
    (hrest : Begins p rest) : Begins p (front ++ rest) := by
  cases front with
  | nil => exact hrest
  | cons c front => exact begins_cons.2 (begins_cons.1 hfront)

namespace Label

/-! ## Keywords in a text -/

private theorem toNat_of_isWordPart {c : Char} (hc : Lexer.isWordPart c = true) :
    33 ≤ c.toNat ∧ c.toNat < 128 := by
  simp only [Lexer.isWordPart, Bool.or_eq_true, beq_iff_eq] at hc
  rcases hc with (hc | rfl) | rfl
  · simp only [Char.isAlphanum, Char.isAlpha, Char.isUpper, Char.isLower, Char.isDigit,
      Bool.or_eq_true, Bool.and_eq_true, decide_eq_true_eq, UInt32.le_iff_toNat_le, ge_iff_le] at hc
    have hnat : c.toNat = c.val.toNat := rfl
    have hupper : 'A'.val.toNat = 65 ∧ 'Z'.val.toNat = 90 := ⟨rfl, rfl⟩
    have hlower : 'a'.val.toNat = 97 ∧ 'z'.val.toNat = 122 := ⟨rfl, rfl⟩
    have hdigit : '0'.val.toNat = 48 ∧ '9'.val.toNat = 57 := ⟨rfl, rfl⟩
    omega
  · decide
  · decide

private theorem isBlank_of_isWordPart {c : Char} (hc : Lexer.isWordPart c = true) :
    Text.isBlank c = false := by
  obtain ⟨hlow, hhigh⟩ := toNat_of_isWordPart hc
  rw [Text.isBlank, Text.Ranges.contains, List.any_eq_false]
  simp only [Text.blankRanges, List.mem_cons, List.not_mem_nil, or_false, Bool.and_eq_true,
    decide_eq_true_eq]
  rintro ⟨low, high⟩ hrange
  simp only [Prod.mk.injEq] at hrange
  omega

/-- A word goes on after a dollar sign, but a keyword may begin there. -/
private theorem eq_dollar_of_isWordPart {c : Char} (hc : Lexer.isWordPart c = true)
    (hchar : Text.isWordChar c = false) : c = '$' := by
  obtain ⟨-, hhigh⟩ := toNat_of_isWordPart hc
  rw [Text.isWordChar, if_pos hhigh] at hchar
  rw [Lexer.isWordPart, hchar, Bool.false_or] at hc
  exact eq_of_beq hc

private theorem isWordPart_of_mem_keyword {keyword : String}
    (hkeyword : keyword ∈ declarationWords) : ∀ c ∈ keyword.toList, Lexer.isWordPart c = true := by
  simp only [declarationWords, List.mem_cons, List.not_mem_nil, or_false] at hkeyword
  rcases hkeyword with rfl | rfl | rfl <;> exact forall_mem_of_all (by decide)

/-- A keyword is found in front of a word only if it is the word. -/
private theorem afterDeclaration?_append {word rest : List Char}
    (hpart : ∀ c ∈ word, Lexer.isWordPart c = true)
    (hne : ∀ keyword ∈ declarationWords, word ≠ keyword.toList)
    (hrest : Begins (Lexer.isWordPart · = false) rest) :
    afterDeclaration? (word ++ rest) = none := by
  rw [afterDeclaration?, List.findSome?_eq_none_iff]
  intro keyword hkeyword
  rw [afterWord?, if_neg]
  rw [Bool.and_eq_true]
  rintro ⟨hstarts, hblank⟩
  obtain ⟨tail, htail⟩ := List.isPrefixOf_iff_prefix.1 hstarts
  rw [← htail, List.drop_left] at hblank
  -- either the keyword is a proper part of the word, or the word one of the keyword
  rcases List.append_eq_append_iff.1 htail with ⟨more, hword, htail⟩ | ⟨more, hword, hmore⟩
  · cases more with
    | nil => exact hne keyword hkeyword (by simpa using hword)
    | cons c more =>
      -- the blank after the keyword would belong to the word
      have hc := hpart c (by simp [hword])
      rw [htail] at hblank
      simp [isBlank_of_isWordPart hc] at hblank
  · cases more with
    | nil => exact hne keyword hkeyword (by simpa using hword.symm)
    | cons c more =>
      -- the keyword would go on after the word
      have hc := isWordPart_of_mem_keyword hkeyword c (by simp [hword])
      rw [hmore, List.cons_append, begins_cons, hc] at hrest
      cases hrest

private theorem afterDeclaration?_cons {c : Char} (hc : Lexer.isWordPart c = false)
    (text : List Char) : afterDeclaration? (c :: text) = none := by
  have hne : ∀ keyword ∈ declarationWords, [] ≠ keyword.toList := by decide
  exact afterDeclaration?_append (by simp) hne (begins_cons.2 hc)

theorem dropDeclarations_cons {inWord : Bool} {c : Char} {text : List Char}
    (h : inWord = false → afterDeclaration? (c :: text) = none) :
    dropDeclarations inWord (c :: text) = c :: dropDeclarations (Text.isWordChar c) text := by
  rw [dropDeclarations]
  split
  · rename_i heq
    split at heq
    · cases heq
    · rename_i hin
      rw [h (by simpa using hin)] at heq
      cases heq
  · rfl

theorem dropDeclarations_of_some {text rest : List Char}
    (h : afterDeclaration? text = some rest) :
    dropDeclarations false text = dropDeclarations false rest := by
  rw [dropDeclarations]
  split
  · rename_i heq
    rw [if_neg (by simp), h] at heq
    cases heq
    rfl
  · rename_i heq
    rw [if_neg (by simp), h] at heq
    cases heq

@[simp] theorem dropDeclarations_nil (inWord : Bool) : dropDeclarations inWord [] = [] := by
  rw [dropDeclarations]
  cases inWord <;> rfl

/-- After a word it does not matter that it was one. -/
private theorem dropDeclarations_after {rest : List Char} (inWord : Bool)
    (hrest : Begins (Lexer.isWordPart · = false) rest) :
    dropDeclarations inWord rest = dropDeclarations false rest := by
  cases rest with
  | nil => simp
  | cons c rest =>
    have hnone := afterDeclaration?_cons (begins_cons.1 hrest) rest
    rw [dropDeclarations_cons fun _ => hnone, dropDeclarations_cons fun _ => hnone]

/-- A word that stays as it is: neither is it a keyword, nor does one stand at its end
after a dollar sign, where a word begins again. -/
structure SafeWord (word : List Char) : Prop where
  ne_nil : word ≠ []
  part : ∀ c ∈ word, Lexer.isWordPart c = true
  ne_keyword : ∀ keyword ∈ declarationWords, word ≠ keyword.toList
  not_suffix : ∀ keyword ∈ declarationWords, ¬ '$' :: keyword.toList <:+ word

/-- The induction is on what is left of the word.  Only after a dollar sign could a
keyword be found in it. -/
private theorem dropDeclarations_word {word rest : List Char} (inWord : Bool)
    (hpart : ∀ c ∈ word, Lexer.isWordPart c = true)
    (hne : inWord = false → ∀ keyword ∈ declarationWords, word ≠ keyword.toList)
    (hsuffix : ∀ keyword ∈ declarationWords, ¬ '$' :: keyword.toList <:+ word)
    (hrest : Begins (Lexer.isWordPart · = false) rest) :
    dropDeclarations inWord (word ++ rest) = word ++ dropDeclarations false rest := by
  induction word generalizing inWord with
  | nil => exact dropDeclarations_after inWord hrest
  | cons c word ih =>
    have hnone : inWord = false → afterDeclaration? (c :: (word ++ rest)) = none :=
      fun hin => afterDeclaration?_append hpart (hne hin) hrest
    rw [List.cons_append, dropDeclarations_cons hnone]
    refine congrArg (c :: ·) (ih _ (fun d hd => hpart d (List.mem_cons_of_mem _ hd)) ?_ ?_)
    · rintro hchar keyword hkeyword rfl
      refine hsuffix keyword hkeyword ?_
      rw [eq_dollar_of_isWordPart (hpart c List.mem_cons_self) hchar]
    · exact fun keyword hkeyword hend =>
        hsuffix keyword hkeyword (hend.trans (List.suffix_cons c word))

/-! ## Phrases -/

/-- The characters that stand between words. -/
def marks : List Char :=
  [' ', '(', ')', ',', '.', '+', '-', '*', '/', '%', '!', '<', '>', '=', '&', '|']

private theorem of_mem_marks :
    ∀ c ∈ marks, Lexer.isWordPart c = false ∧ Text.isWordChar c = false :=
  forall_mem_of_all (by decide)

/-- Words with marks between them. -/
inductive Phrase : List Char → Prop
  | nil : Phrase []
  | mark {c : Char} {text : List Char} (hc : c ∈ marks) (h : Phrase text) : Phrase (c :: text)
  | word {word text : List Char} (hword : SafeWord word)
      (hstop : Begins (Lexer.isWordPart · = false) text) (h : Phrase text) : Phrase (word ++ text)

namespace Phrase

variable {text more : List Char}

theorem append (h : Phrase text) (hmore : Phrase more)
    (hstop : Begins (Lexer.isWordPart · = false) more) : Phrase (text ++ more) := by
  induction h with
  | nil => exact hmore
  | mark hc _ ih => exact .mark hc ih
  | word hword hbegins _ ih =>
    rw [List.append_assoc]
    exact .word hword (hbegins.append hstop) ih

theorem marks_append {front : List Char} (hfront : ∀ c ∈ front, c ∈ marks) (h : Phrase text) :
    Phrase (front ++ text) := by
  induction front with
  | nil => exact h
  | cons c front ih =>
    obtain ⟨hc, hfront⟩ := List.forall_mem_cons.1 hfront
    exact .mark hc (ih hfront)

/-- Nothing is taken out of a phrase. -/
theorem dropDeclarations_append (h : Phrase text)
    (hrest : Begins (Lexer.isWordPart · = false) more) :
    dropDeclarations false (text ++ more) = text ++ dropDeclarations false more := by
  induction h with
  | nil => rfl
  | @mark c text hc _ ih =>
    obtain ⟨hpart, hchar⟩ := of_mem_marks c hc
    rw [List.cons_append, dropDeclarations_cons fun _ => afterDeclaration?_cons hpart _, hchar, ih]
    rfl
  | word hword hbegins _ ih =>
    rw [List.append_assoc, dropDeclarations_word false hword.part (fun _ => hword.ne_keyword)
      hword.not_suffix (hbegins.append hrest), ih, List.append_assoc]

theorem part_or_mark (h : Phrase text) {c : Char} (hc : c ∈ text) :
    Lexer.isWordPart c = true ∨ c ∈ marks := by
  induction h with
  | nil => cases hc
  | mark hmark _ ih =>
    rcases List.mem_cons.1 hc with rfl | hc
    · exact .inr hmark
    · exact ih hc
  | word hword _ _ ih =>
    rcases List.mem_append.1 hc with hc | hc
    · exact .inl (hword.part c hc)
    · exact ih hc

/-- A phrase holds no semicolon and nothing that becomes a blank. -/
theorem not_mem (h : Phrase text) {c : Char} (hc : c ∈ [';', '\n', '\x7b', '\x7d']) :
    c ∉ text := by
  intro hmem
  have hneither : ∀ d ∈ [';', '\n', '\x7b', '\x7d'],
      ¬ (Lexer.isWordPart d = true ∨ d ∈ marks) :=
    forall_mem_of_all (by decide)
  exact hneither c hc (h.part_or_mark hmem)

theorem map_blankOut (h : Phrase text) : text.map blankOut = text := by
  refine (List.map_congr_left fun c hc => ?_).trans (List.map_id text)
  rw [blankOut, if_neg, id]
  simp only [Bool.or_eq_true, beq_iff_eq]
  rintro ((rfl | rfl) | rfl)
  · exact h.not_mem (by decide) hc
  · exact h.not_mem (by decide) hc
  · exact h.not_mem (by decide) hc

end Phrase

/-- A phrase with no blank at either end. -/
structure Caption (text : List Char) : Prop where
  phrase : Phrase text
  ne_nil : text ≠ []
  head : Begins (Text.isBlank · = false) text
  last : Begins (Text.isBlank · = false) text.reverse

private theorem begins_append_of_ne_nil {p : Char → Prop} {front : List Char} (hne : front ≠ [])
    (h : Begins p front) (rest : List Char) : Begins p (front ++ rest) := by
  obtain ⟨c, front, rfl⟩ := List.exists_cons_of_ne_nil hne
  exact begins_cons.2 (begins_cons.1 h)

private theorem dropWhile_isBlank {text : List Char}
    (h : Begins (Text.isBlank · = false) text) : text.dropWhile Text.isBlank = text := by
  show ([] ++ text).dropWhile Text.isBlank = text
  exact dropWhile_append (by simp) h

namespace Caption

variable {text more : List Char}

theorem of_word (h : SafeWord text) : Caption text where
  phrase := by simpa using Phrase.word h (by simp [Begins]) .nil
  ne_nil := h.ne_nil
  head c hc := isBlank_of_isWordPart (h.part c (List.mem_of_mem_head? hc))
  last c hc := isBlank_of_isWordPart (h.part c (List.mem_reverse.1 (List.mem_of_mem_head? hc)))

/-- Two captions with marks between them. -/
theorem join (h : Caption text) {middle : List Char} (hne : middle ≠ [])
    (hmiddle : ∀ c ∈ middle, c ∈ marks) (hmore : Caption more) :
    Caption (text ++ (middle ++ more)) where
  phrase := by
    have hstop : Begins (Lexer.isWordPart · = false) middle :=
      fun c hc => (of_mem_marks c (hmiddle c (List.mem_of_mem_head? hc))).1
    exact h.phrase.append (.marks_append hmiddle hmore.phrase)
      (begins_append_of_ne_nil hne hstop more)
  ne_nil := by simp [h.ne_nil]
  head := begins_append_of_ne_nil h.ne_nil h.head _
  last := by
    rw [List.reverse_append, List.reverse_append, List.append_assoc]
    exact begins_append_of_ne_nil (by simp [hmore.ne_nil]) hmore.last _

/-- A caption with marks around it, none of them a blank at either end. -/
theorem enclose (h : Caption text) (front back : List Char)
    (hmarks : ∀ c ∈ front ++ back, c ∈ marks) (hhead : Begins (Text.isBlank · = false) front)
    (hlast : Begins (Text.isBlank · = false) back.reverse) :
    Caption (front ++ (text ++ back)) where
  phrase := by
    obtain ⟨hfront, hback⟩ := List.forall_mem_append.1 hmarks
    have hphrase : Phrase back := by simpa using Phrase.marks_append hback .nil
    exact .marks_append hfront (h.phrase.append hphrase
      fun c hc => (of_mem_marks c (hback c (List.mem_of_mem_head? hc))).1)
  ne_nil := by simp [h.ne_nil]
  head := hhead.append (begins_append_of_ne_nil h.ne_nil h.head back)
  last := by
    rw [List.reverse_append, List.reverse_append]
    exact begins_append_of_ne_nil (by simp [h.ne_nil]) (hlast.append h.last) _

theorem trimBlanks_eq (h : Caption text) : Text.trimBlanks text = text := by
  rw [Text.trimBlanks, dropWhile_isBlank h.head, dropWhile_isBlank h.last, List.reverse_reverse]

end Caption

/-! ## The lines of a label -/

/-- The lines that a text without line feeds and braces is shown as. -/
def shown (text : List Char) : List (List Char) :=
  ((splitSemicolons (dropDeclarations false text)).map Text.trimBlanks).filter (!·.isEmpty)

theorem clean_eq_shown (text : String) :
    clean text = String.intercalate "\n" ((shown (text.toList.map blankOut)).map String.ofList) :=
  rfl

private theorem exists_splitSemicolons (text : List Char) :
    ∃ first others, splitSemicolons text = first :: others := by
  fun_cases splitSemicolons text <;> exact ⟨_, _, rfl⟩

private theorem splitSemicolons_append {text : List Char} (htext : ';' ∉ text)
    (rest : List Char) : splitSemicolons (text ++ ';' :: rest) = text :: splitSemicolons rest := by
  induction text with
  | nil => rfl
  | cons c text ih =>
    rw [List.mem_cons, not_or] at htext
    rw [List.cons_append, splitSemicolons, if_neg (by simpa using Ne.symm htext.1), ih htext.2]

@[simp] theorem shown_nil : shown [] = [] := by
  rw [shown, dropDeclarations_nil]
  rfl

private theorem shown_blank (text : List Char) : shown (' ' :: text) = shown text := by
  obtain ⟨first, others, hsplit⟩ := exists_splitSemicolons (dropDeclarations false text)
  have hcons : dropDeclarations false (' ' :: text) = ' ' :: dropDeclarations false text :=
    dropDeclarations_cons fun _ => afterDeclaration?_cons rfl text
  have htrim : Text.trimBlanks (' ' :: first) = Text.trimBlanks first := rfl
  rw [shown, shown, hcons, splitSemicolons, if_neg (by decide), hsplit, List.map_cons,
    List.map_cons, htrim]

/-- Line feeds, braces and indentation do not show. -/
theorem shown_blanked {front : List Char} (hfront : ∀ c ∈ front, blankOut c = ' ')
    (text : List Char) : shown (front.map blankOut ++ text) = shown text := by
  induction front with
  | nil => rfl
  | cons c front ih =>
    obtain ⟨hc, hfront⟩ := List.forall_mem_cons.1 hfront
    rw [List.map_cons, hc, List.cons_append, shown_blank, ih hfront]

/-- A caption with a semicolon after it is a line. -/
theorem shown_caption {text : List Char} (h : Caption text) (rest : List Char) :
    shown (text ++ ';' :: rest) = text :: shown rest := by
  have hstop : dropDeclarations false (';' :: rest) = ';' :: dropDeclarations false rest :=
    dropDeclarations_cons fun _ => afterDeclaration?_cons rfl rest
  rw [shown, h.phrase.dropDeclarations_append (begins_cons.2 rfl), hstop,
    splitSemicolons_append (h.phrase.not_mem (by decide)), List.map_cons, h.trimBlanks_eq,
    List.filter_cons_of_pos (by simp [h.ne_nil])]
  rfl

/-- The keyword that opens a declaration does not show. -/
theorem shown_keyword (kind : DeclKind) {text : List Char}
    (htext : Begins (Text.isBlank · = false) text) :
    shown (kind.spelling.toList ++ ' ' :: text) = shown text := by
  have hdrop : (' ' :: text).dropWhile Text.isBlank = text := by
    rw [List.dropWhile_cons_of_pos (by decide), dropWhile_isBlank htext]
  have hafter : afterDeclaration? (kind.spelling.toList ++ ' ' :: text) = some text := by
    conv_rhs => rw [← hdrop]
    cases kind <;> rfl
  rw [shown, dropDeclarations_of_some hafter, shown]

/-- A name that stays as it is in a label, since it does not end in a dollar sign and a
keyword. -/
structure KeepsName (name : String) : Prop where
  isName : IsName name
  not_suffix : ∀ keyword ∈ declarationWords, ¬ '$' :: keyword.toList <:+ name.toList

theorem KeepsName.safeWord {name : String} (h : KeepsName name) : SafeWord name.toList where
  ne_nil := h.isName.isWord.ne_nil
  part := h.isName.isWord.part
  ne_keyword keyword hkeyword heq := by
    obtain rfl : name = keyword := String.toList_inj.1 heq
    have hof := h.isName.ofWord_eq
    simp only [declarationWords, List.mem_cons, List.not_mem_nil, or_false] at hkeyword
    rcases hkeyword with rfl | rfl | rfl <;> exact absurd hof (by decide)
  not_suffix := h.not_suffix

private theorem isWordPart_of_isDigit {c : Char} (hc : c.isDigit = true) :
    Lexer.isWordPart c = true := by
  simp [Lexer.isWordPart, Char.isAlphanum, hc]

private theorem safeWord_digits {digits : List Char} (hne : digits ≠ [])
    (hdigits : ∀ c ∈ digits, c.isDigit = true) : SafeWord digits where
  ne_nil := hne
  part c hc := isWordPart_of_isDigit (hdigits c hc)
  ne_keyword keyword hkeyword := by
    rintro rfl
    simp only [declarationWords, List.mem_cons, List.not_mem_nil, or_false] at hkeyword
    rcases hkeyword with rfl | rfl | rfl
    · exact absurd (hdigits 'l' (by decide)) (by decide)
    · exact absurd (hdigits 'v' (by decide)) (by decide)
    · exact absurd (hdigits 'c' (by decide)) (by decide)
  not_suffix keyword _ hend := absurd (hdigits '$' (hend.subset List.mem_cons_self)) (by decide)

private theorem caption_magnitude {x : Float} (hx : x.toBits.toNat ≤ Number.infinityBits) :
    Caption (Literal.numberLayout.write x).toList := by
  rcases Nat.lt_or_eq_of_le hx with hfinite | hinfinite
  · obtain ⟨whole, places, htext, hne, hwhole, hplaces, -⟩ := Number.write_parts hfinite
    have hcaption := Caption.of_word (safeWord_digits hne hwhole)
    rw [htext, Number.pointed]
    split
    · rwa [List.append_nil]
    · rename_i hpoint
      have hdigits := Caption.of_word (safeWord_digits (by simpa using hpoint) hplaces)
      exact hcaption.join (List.cons_ne_nil '.' []) (forall_mem_of_all (by decide)) hdigits
  · rw [Number.write_infinity hinfinite]
    exact .of_word ⟨by decide, forall_mem_of_all (by decide), by decide, by decide⟩

/-- A printed value that is no text is a caption. -/
theorem caption_literal {value : Literal} (htext : ∀ s, value ≠ .text s) :
    Caption value.render.toList := by
  cases value with
  | number x =>
    rw [Literal.render]
    by_cases hnan : x.isNaN = true
    · rw [Number.write_nan hnan]
      exact .of_word ⟨by decide, forall_mem_of_all (by decide), by decide, by decide⟩
    have hnan := Bool.eq_false_iff.2 hnan
    by_cases hsign : Number.signBit x = true
    · have hsigned := (caption_magnitude (toBits_abs_le hnan)).enclose ['-'] []
        (forall_mem_of_all (by decide)) (begins_cons.2 (by decide)) (by simp [Begins])
      rw [Number.write_signed hnan hsign]
      simpa using hsigned
    · exact caption_magnitude (toBits_le_of_signBit hnan (Bool.eq_false_iff.2 hsign))
  | bool b =>
    cases b <;> exact .of_word ⟨by decide, forall_mem_of_all (by decide), by decide, by decide⟩
  | text s => exact absurd rfl (htext s)

end Label

/-! ## Expressions -/

/-- Whether a text literal occurs in the expression. -/
def Expr.hasText : Expr → Bool
  | .literal _ (.text _) => true
  | .literal _ (.number _) | .literal _ (.bool _) => false
  | .identifier .. | .update .. => false
  | .unary _ _ operand => operand.hasText
  | .binary _ _ left right => left.hasText || right.hasText
  | .assign _ _ _ value => value.hasText

open Label

private theorem caption_wrapIf {text : String} (h : Caption text.toList) (wrap : Bool) :
    Caption (Expr.wrapIf wrap text).toList := by
  cases wrap with
  | false => exact h
  | true =>
    have hinner := h.enclose ['('] [')'] (forall_mem_of_all (by decide))
      (begins_cons.2 (by decide)) (begins_cons.2 (by decide))
    simpa [Expr.wrapIf] using hinner

private theorem caption_signed (op : UnaryOp) {inner : String} (h : Caption inner.toList) :
    Caption (op.spelling ++ Expr.signGap op inner ++ inner).toList := by
  obtain ⟨c, hspelling, hc, hblank⟩ :
      ∃ c, op.spelling.toList = [c] ∧ c ∈ marks ∧ Text.isBlank c = false := by
    cases op <;> exact ⟨_, rfl, by decide⟩
  have hgap : ∀ d ∈ (Expr.signGap op inner).toList, d ∈ marks := by
    rw [Expr.signGap]
    split
    · exact forall_mem_of_all (by decide)
    · simp
  have hsigned := h.enclose (c :: (Expr.signGap op inner).toList) []
    (by simpa using And.intro hc hgap) (begins_cons.2 hblank) (by simp [Begins])
  simpa [hspelling] using hsigned

/-- A printed expression without texts is a caption. -/
theorem Expr.caption_render {e : Expr} {okNumber : Float → Prop}
    (hleaves : e.Leaves KeepsName okNumber) (htext : e.hasText = false) :
    Caption e.render.toList := by
  induction e with
  | literal _ value =>
    refine caption_literal ?_
    rintro s rfl
    cases htext
  | identifier _ name => exact .of_word (KeepsName.safeWord hleaves)
  | unary _ op operand ih =>
    have hinner := caption_wrapIf (ih hleaves htext) (operand.precedence < unaryPrecedence)
    exact caption_signed op hinner
  | binary _ op left right ihl ihr =>
    obtain ⟨hleft, hright⟩ := Bool.or_eq_false_iff.1 htext
    have hmarks : ∀ c ∈ ' ' :: (op.spelling.toList ++ [' ']), c ∈ marks := by
      cases op <;> exact forall_mem_of_all (by decide)
    have hoperands := (caption_wrapIf (ihl hleaves.1 hleft) (left.precedence < op.precedence)).join
      (List.cons_ne_nil _ _) hmarks
      (caption_wrapIf (ihr hleaves.2 hright) (right.precedence ≤ op.precedence))
    simpa [Expr.render] using hoperands
  | assign _ op target value ih =>
    have hmarks : ∀ c ∈ ' ' :: (op.spelling.toList ++ [' ']), c ∈ marks := by
      cases op <;> exact forall_mem_of_all (by decide)
    have hsides := (Caption.of_word hleaves.1.safeWord).join (List.cons_ne_nil _ _) hmarks
      (ih hleaves.2 htext)
    simpa [Expr.render] using hsides
  | update _ op leading target =>
    have hname := Caption.of_word (KeepsName.safeWord hleaves)
    have hmarks : ∀ c ∈ op.spelling.toList, c ∈ marks := by
      cases op <;> exact forall_mem_of_all (by decide)
    have hblank : ∀ c ∈ op.spelling.toList, Text.isBlank c = false := by
      cases op <;> exact forall_mem_of_all (by decide)
    cases leading with
    | true =>
      have hstep := hname.enclose op.spelling.toList [] (by simpa using hmarks)
        (fun c hc => hblank c (List.mem_of_mem_head? hc)) (by simp [Begins])
      simpa [Expr.render] using hstep
    | false =>
      have hstep := hname.enclose [] op.spelling.toList hmarks (by simp [Begins])
        (fun c hc => hblank c (List.mem_reverse.1 (List.mem_of_mem_head? hc)))
      simpa [Expr.render] using hstep

/-! ## Statements -/

namespace Stmt

mutual

/-- Statements that only declare, evaluate or return, and blocks of them at any depth,
without text literals.  A declaration has at least one name, as the grammar asks for. -/
def simple : Stmt → Bool
  | .block _ body => simpleAll body
  | .expression _ expr => !expr.hasText
  | .declare _ _ declarators =>
    !declarators.isEmpty && declarators.all fun d => !d.init.any Expr.hasText
  | .exit _ result => !result.any Expr.hasText
  | .function .. | .ifThen .. | .ifElse .. | .loop .. => false

/-- Whether all statements of a list are simple. -/
def simpleAll : List Stmt → Bool
  | [] => true
  | s :: rest => s.simple && simpleAll rest

end

/-- The word that opens a declaration, and the blank after it. -/
def opening : Stmt → String
  | .declare _ kind _ => kind.spelling ++ " "
  | _ => ""

/-- The text of a simple statement without the word that opens a declaration and
without the semicolon. -/
def bare : Stmt → String
  | .expression _ expr => expr.render
  | .declare _ _ declarators => String.intercalate ", " (declarators.map renderDeclarator)
  | .exit _ (some result) => "return " ++ result.render
  | .exit _ none => "return"
  | .function .. | .block .. | .ifThen .. | .ifElse .. | .loop .. => ""

variable {okNumber : Float → Prop}

private theorem caption_declarator {d : Declarator} (hleaves : d.Leaves KeepsName okNumber)
    (htext : d.init.any Expr.hasText = false) : Caption (renderDeclarator d).toList := by
  obtain ⟨name, init, line⟩ := d
  have hname := Caption.of_word hleaves.1.safeWord
  cases init with
  | none => exact hname
  | some init =>
    have hvalue := Expr.caption_render (hleaves.2 init rfl) htext
    have hboth := hname.join (List.cons_ne_nil ' ' ['=', ' ']) (forall_mem_of_all (by decide))
      hvalue
    simpa [renderDeclarator] using hboth

private theorem caption_commas {texts : List String} (hne : texts ≠ [])
    (h : ∀ text ∈ texts, Caption text.toList) :
    Caption (String.intercalate ", " texts).toList := by
  induction texts with
  | nil => exact absurd rfl hne
  | cons text texts ih =>
    -- between two names stand a comma and a blank, both of them marks
    obtain ⟨htext, htexts⟩ := List.forall_mem_cons.1 h
    cases texts with
    | nil => simpa using htext
    | cons next texts =>
      have hboth := htext.join (List.cons_ne_nil ',' [' ']) (forall_mem_of_all (by decide))
        (ih (List.cons_ne_nil _ _) htexts)
      simpa using hboth

private theorem safeWord_return : SafeWord "return".toList :=
  ⟨by decide, forall_mem_of_all (by decide), by decide, by decide⟩

/-- Apart from blocks, a simple statement is its bare text between the opening word and
a semicolon, and the bare text is a caption. -/
theorem caption_bare {s : Stmt} (hsimple : s.simple = true) (hblock : s.isBlock = false)
    (hleaves : s.Leaves KeepsName okNumber) :
    (∀ depth, s.renderAt depth = s.opening ++ s.bare ++ ";") ∧ Caption s.bare.toList := by
  cases s with
  | block => cases hblock
  | expression line expr =>
    refine ⟨fun depth => ?_, Expr.caption_render hleaves (by simpa [simple] using hsimple)⟩
    simp [renderAt, opening, bare]
  | declare line kind declarators =>
    refine ⟨fun depth => rfl, ?_⟩
    simp only [simple, Bool.and_eq_true, Bool.not_eq_true', List.all_eq_true] at hsimple
    refine caption_commas (by simpa using hsimple.1) fun text htext => ?_
    obtain ⟨d, hd, rfl⟩ := List.mem_map.1 htext
    exact caption_declarator (hleaves d hd) (hsimple.2 d hd)
  | exit line result =>
    cases result with
    | none => exact ⟨fun depth => rfl, .of_word safeWord_return⟩
    | some result =>
      refine ⟨fun depth => ?_, ?_⟩
      · simp [renderAt, opening, bare]
      · have hresult := Expr.caption_render (hleaves result rfl) (by simpa [simple] using hsimple)
        have hboth := (Caption.of_word safeWord_return).join (List.cons_ne_nil ' ' [])
          (forall_mem_of_all (by decide)) hresult
        simpa [bare] using hboth
  | function | ifThen | ifElse | loop => cases hsimple

private theorem shown_opening (s : Stmt) {text : List Char}
    (htext : Begins (Text.isBlank · = false) text) :
    shown (s.opening.toList.map blankOut ++ text) = shown text := by
  cases s with
  | declare line kind declarators =>
    have hspelling : (kind.spelling ++ " ").toList.map blankOut ++ text
        = kind.spelling.toList ++ ' ' :: text := by
      cases kind <;> rfl
    rw [opening, hspelling, shown_keyword kind htext]
  | _ => rfl

/-- A simple statement that is no block is one line. -/
private theorem shown_bare {s : Stmt} (hsimple : s.simple = true) (hblock : s.isBlock = false)
    (hleaves : s.Leaves KeepsName okNumber) (depth : Nat) (rest : List Char) :
    shown ((s.renderAt depth).toList.map blankOut ++ rest) = s.bare.toList :: shown rest := by
  obtain ⟨hrender, hcaption⟩ := caption_bare hsimple hblock hleaves
  rw [hrender, String.toList_append, String.toList_append, List.map_append, List.map_append,
    hcaption.phrase.map_blankOut, List.append_assoc, List.append_assoc,
    shown_opening s (begins_append_of_ne_nil hcaption.ne_nil hcaption.head _)]
  exact shown_caption hcaption rest

private theorem blankOut_indent (depth : Nat) : ∀ c ∈ (indent depth).toList, blankOut c = ' ' := by
  intro c hc
  rw [indent, String.toList_ofList] at hc
  rw [List.eq_of_mem_replicate hc]
  rfl

/-- The texts of statements as they show. -/
def captions (stmts : List Stmt) : List (List Char) :=
  stmts.map fun s => s.bare.toList

private theorem captions_cons (s : Stmt) (rest : List Stmt) :
    captions (statementsOf (s :: rest)) = captions s.statements ++ captions (statementsOf rest) :=
  List.map_append

mutual

/-- At any depth a printed statement is shown as its lines, before those of what
follows it. -/
theorem shown_renderAt : (s : Stmt) → s.simple = true → s.Leaves KeepsName okNumber →
    ∀ (depth : Nat) (rest : List Char),
      shown ((s.renderAt depth).toList.map blankOut ++ rest)
        = captions s.statements ++ shown rest
  | .block line [], _, _, depth, rest => by
    rw [renderAt, inBraces, if_pos (by rfl), shown_blanked (forall_mem_of_all (by decide))]
    rfl
  | .block line (s :: body), hsimple, hleaves, depth, rest => by
    have hlines := shown_renderLines (s :: body) hsimple hleaves (depth + 1)
    rw [renderAt, inBraces, if_neg (by simp)]
    simp only [String.toList_append, List.map_append, List.append_assoc]
    rw [shown_blanked (forall_mem_of_all (by decide)), hlines,
      shown_blanked (blankOut_indent depth), shown_blanked (forall_mem_of_all (by decide))]
    rfl
  | .expression line expr, hsimple, hleaves, depth, rest =>
    shown_bare hsimple rfl hleaves depth rest
  | .declare line kind declarators, hsimple, hleaves, depth, rest =>
    shown_bare hsimple rfl hleaves depth rest
  | .exit line result, hsimple, hleaves, depth, rest => shown_bare hsimple rfl hleaves depth rest
  | .function .., hsimple, _, _, _ => by cases hsimple
  | .ifThen .., hsimple, _, _, _ => by cases hsimple
  | .ifElse .., hsimple, _, _, _ => by cases hsimple
  | .loop .., hsimple, _, _, _ => by cases hsimple

theorem shown_renderLines : (body : List Stmt) → simpleAll body = true →
    LeavesAll KeepsName okNumber body → ∀ (depth : Nat) (rest : List Char),
      shown ((renderLines body depth).toList.map blankOut ++ rest)
        = captions (statementsOf body) ++ shown rest
  | [], _, _, _, _ => rfl
  | s :: body, hsimple, hleaves, depth, rest => by
    obtain ⟨hs, hbody⟩ := Bool.and_eq_true_iff.1 hsimple
    have hlines := shown_renderLines body hbody hleaves.2 depth rest
    rw [renderLines]
    simp only [String.toList_append, List.map_append, List.append_assoc]
    rw [shown_blanked (blankOut_indent depth), shown_renderAt s hs hleaves.1,
      shown_blanked (forall_mem_of_all (by decide)), hlines, captions_cons, List.append_assoc]

end

/-- Printed statements with line feeds between them are shown as their lines. -/
theorem shown_run {stmts : List Stmt} (hsimple : simpleAll stmts = true)
    (hleaves : LeavesAll KeepsName okNumber stmts) :
    shown ((String.intercalate "\n" (stmts.map render)).toList.map blankOut)
      = captions (statementsOf stmts) := by
  induction stmts with
  | nil => simp [captions, statementsOf]
  | cons s stmts ih =>
    obtain ⟨hs, hrest⟩ := Bool.and_eq_true_iff.1 hsimple
    have ih := ih hrest hleaves.2
    have hfirst := shown_renderAt s hs hleaves.1 0
    rw [captions_cons, ← ih]
    cases stmts with
    | nil => simpa [render] using hfirst []
    | cons next stmts =>
      rw [List.map_cons, List.map_cons, String.intercalate_cons_cons]
      simp only [String.toList_append, List.map_append, List.append_assoc]
      rw [render, hfirst, shown_blanked (forall_mem_of_all (by decide))]

mutual

/-- What a simple statement is made of. -/
theorem simple_of_mem_statements : (s : Stmt) → s.simple = true → s.Leaves KeepsName okNumber →
    ∀ t ∈ s.statements, t.simple = true ∧ t.isBlock = false ∧ t.Leaves KeepsName okNumber
  | .block _ body, hsimple, hleaves => simple_of_mem_statementsOf body hsimple hleaves
  | .expression .., hsimple, hleaves => by simpa [statements] using ⟨hsimple, rfl, hleaves⟩
  | .declare .., hsimple, hleaves => by simpa [statements] using ⟨hsimple, rfl, hleaves⟩
  | .exit .., hsimple, hleaves => by simpa [statements] using ⟨hsimple, rfl, hleaves⟩
  | .function .., hsimple, _ => by cases hsimple
  | .ifThen .., hsimple, _ => by cases hsimple
  | .ifElse .., hsimple, _ => by cases hsimple
  | .loop .., hsimple, _ => by cases hsimple

theorem simple_of_mem_statementsOf : (body : List Stmt) → simpleAll body = true →
    LeavesAll KeepsName okNumber body →
    ∀ t ∈ statementsOf body, t.simple = true ∧ t.isBlock = false ∧ t.Leaves KeepsName okNumber
  | [], _, _, t, ht => by cases ht
  | s :: body, hsimple, hleaves, t, ht => by
    obtain ⟨hs, hbody⟩ := Bool.and_eq_true_iff.1 hsimple
    rcases List.mem_append.1 ht with ht | ht
    · exact simple_of_mem_statements s hs hleaves.1 t ht
    · exact simple_of_mem_statementsOf body hbody hleaves.2 t ht

end

end Stmt

/-- The node of a run of simple statements shows them line by line.  Each statement,
at any depth and in source order, has one line with its printed text, less the word
that opens a declaration and the semicolon.  Names may hold such words, and even begin
with them. -/
theorem Builder.addRun_caption (b : Builder) (last : Option NodeId) {stmts : List Stmt}
    (hsimple : Stmt.simpleAll stmts = true)
    (hleaves : Stmt.LeavesAll KeepsName (fun _ => True) stmts) :
    let texts := (Stmt.statementsOf stmts).map Stmt.bare
    (∃ node, (b.addRun stmts last).2.graph.nodes = b.graph.nodes ++ [node] ∧
        node.label = numbered node.id (String.intercalate "\n" texts)) ∧
      (∀ s ∈ Stmt.statementsOf stmts, s.isBlock = false ∧
        s.render = s.opening ++ s.bare ++ ";" ∧ s.bare ≠ "") ∧
      (texts ≠ [] →
        (String.intercalate "\n" texts).toList.splitOn '\n' = texts.map String.toList) := by
  intro texts
  have hparts : ∀ s ∈ Stmt.statementsOf stmts, s.isBlock = false ∧
      s.render = s.opening ++ s.bare ++ ";" ∧ Caption s.bare.toList := by
    intro s hs
    obtain ⟨hsimple, hblock, hleaves⟩ := Stmt.simple_of_mem_statementsOf stmts hsimple hleaves s hs
    obtain ⟨hrender, hcaption⟩ := Stmt.caption_bare hsimple hblock hleaves
    exact ⟨hblock, hrender 0, hcaption⟩
  have hclean : clean (String.intercalate "\n" (stmts.map Stmt.render))
      = String.intercalate "\n" texts := by
    rw [clean_eq_shown, Stmt.shown_run hsimple hleaves, Stmt.captions, List.map_map]
    congr 1
    exact List.map_congr_left fun s _ => String.ofList_toList
  refine ⟨?_, fun s hs => ?_, fun hne => ?_⟩
  · refine ⟨⟨.statement b.next, numbered (.statement b.next) (clean (String.intercalate "\n"
      (stmts.map Stmt.render))), .block, ((stmts.head?.map Stmt.line).map b.onPath).getD false,
      stmts.head?.map Stmt.line⟩, ?_, congrArg (numbered _) hclean⟩
    cases last <;> rfl
  · obtain ⟨hblock, hrender, hcaption⟩ := hparts s hs
    refine ⟨hblock, hrender, fun hempty => hcaption.ne_nil ?_⟩
    rw [hempty]
    rfl
  · rw [String.toList_intercalate]
    refine List.splitOn_intercalate '\n' (fun line hline => ?_) (by simpa using hne)
    obtain ⟨text, htext, rfl⟩ := List.mem_map.1 hline
    obtain ⟨s, hs, rfl⟩ := List.mem_map.1 htext
    exact (hparts s hs).2.2.phrase.not_mem (by decide)

/-- Names with the words of declarations in them, in blocks inside of blocks. -/
private def declaresLetters : List Stmt :=
  [.declare 1 .letDecl [⟨"letter", some (.identifier 1 "x$"), 1⟩, ⟨"let$", none, 1⟩],
   .block 2 [.declare 2 .constDecl [⟨"outlet", some (.unary 2 .neg (.identifier 2 "letter")), 2⟩],
     .block 3 []],
   .exit 4 (some (.identifier 4 "variable"))]

private theorem leaves_declaresLetters :
    Stmt.LeavesAll KeepsName (fun _ => True) declaresLetters := by
  have hnames : ∀ name ∈ ["letter", "x$", "let$", "outlet", "variable"], KeepsName name := by
    simp only [List.forall_mem_cons, List.not_mem_nil, false_imp_iff, implies_true, and_true]
    refine ⟨?_, ?_, ?_, ?_, ?_⟩ <;>
      exact ⟨⟨isWord_of_check (by decide), by decide⟩, by decide⟩
  simp [declaresLetters, Stmt.LeavesAll, Stmt.Leaves, Declarator.Leaves, Expr.Leaves, hnames]

theorem Builder.addRun_caption_letters :
    Stmt.simpleAll declaresLetters = true ∧
      Stmt.LeavesAll KeepsName (fun _ => True) declaresLetters ∧
      ∃ node, ((start 1 none).addRun declaresLetters none).2.graph.nodes = [node] ∧
        node.label
          = numbered node.id "letter = x$, let$\noutlet = -letter\nreturn variable" := by
  obtain ⟨⟨node, hnodes, hlabel⟩, -⟩ :=
    (start 1 none).addRun_caption none (show Stmt.simpleAll declaresLetters = true from rfl)
      leaves_declaresLetters
  exact ⟨rfl, leaves_declaresLetters, node, hnodes, hlabel⟩

end TraceGraph
