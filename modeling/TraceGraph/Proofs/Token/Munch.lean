import TraceGraph.Proofs.Token.Lexing

/-!
# Maximal munch

What trivia and lexemes are is said here without the functions that read them, and a
text is then cut into pieces from the left: trivia where some start, and otherwise the
longest lexeme that starts there.  The functions try one kind after the other, so that
the lexeme they take is the longest one has to be shown.

* `Lexer.trivia?_eq_some_iff`: trivia are skipped where they start.
* `Lexer.lexeme?_eq_some_iff`: the lexeme that is taken is the longest one.
* `Lexer.Munches`: a text falls into pieces, up to some point.
* `Lexer.Munches.scan_eq`: the scan over the pieces of a text.
* `tokenize_munches`: what becomes of any text.
-/

namespace TraceGraph

namespace Lexer

private theorem forall_mem_cons_takeWhile {p : Char → Bool} {c : Char} (hc : p c = true)
    (text : List Char) : ∀ d ∈ c :: text.takeWhile p, p d = true :=
  List.forall_mem_cons.2 ⟨hc, fun _ hd => List.mem_takeWhile_imp hd⟩

/-! ## Trivia -/

/-- Trivia and what may follow them: a whole run of blanks, a comment up to the end of
its line, or a comment up to the first closing after its two opening characters. -/
inductive Trivia : List Char → List Char → Prop
  | blanks {run rest : List Char} (hne : run ≠ []) (hrun : ∀ c ∈ run, isSpace c = true)
      (hrest : Begins (isSpace · = false) rest) : Trivia run rest
  | lineComment {body rest : List Char} (hbody : ∀ c ∈ body, c ≠ '\r' ∧ c ≠ '\n')
      (hrest : rest = [] ∨ ['\n'] <+: rest ∨ ['\r', '\n'] <+: rest) :
      Trivia ('/' :: '/' :: body) rest
  | blockComment {body : List Char} (rest : List Char) (hbody : ¬ ['*', '/'] <:+: body ++ ['*']) :
      Trivia ('/' :: '*' :: (body ++ ['*', '/'])) rest

/-- Some trivia start where the text does. -/
def StartsTrivia (text : List Char) : Prop :=
  ∃ skipped rest, Trivia skipped rest ∧ text = skipped ++ rest

private theorem inLine_iff {c : Char} : inLine c = true ↔ c ≠ '\r' ∧ c ≠ '\n' := by
  simp [inLine]

/-- A line is left where it ends. -/
theorem lineComment?_eq_some_iff {text body rest : List Char} :
    lineComment? text = some (body, rest) ↔ (∀ c ∈ body, c ≠ '\r' ∧ c ≠ '\n') ∧
      (rest = [] ∨ ['\n'] <+: rest ∨ ['\r', '\n'] <+: rest) ∧ text = body ++ rest := by
  constructor
  · intro h
    have htake : ∀ c ∈ text.takeWhile inLine, c ≠ '\r' ∧ c ≠ '\n' :=
      fun c hc => inLine_iff.1 (List.mem_takeWhile_imp hc)
    have hstop : ∀ c tail, text.dropWhile inLine = c :: tail → c = '\r' ∨ c = '\n' := by
      intro c tail hdrop
      have hc := List.head?_dropWhile_not inLine text
      rw [hdrop] at hc
      simpa [inLine, imp_iff_not_or] using hc
    have htext := List.takeWhile_append_dropWhile (p := inLine) (l := text)
    simp only [lineComment?] at h
    split at h
    · rename_i tail hdrop
      cases h
      exact ⟨htake, .inr (.inr ⟨tail, rfl⟩), hdrop ▸ htext.symm⟩
    · cases h
    · rename_i hlone
      cases h
      refine ⟨htake, ?_, htext.symm⟩
      cases hdrop : text.dropWhile inLine with
      | nil => exact .inl rfl
      | cons c tail =>
        rcases hstop c tail hdrop with rfl | rfl
        · exact absurd hdrop (hlone tail)
        · exact .inr (.inl ⟨tail, rfl⟩)
  · rintro ⟨hbody, hrest, rfl⟩
    have hline : ∀ c ∈ body, inLine c = true := fun c hc => inLine_iff.2 (hbody c hc)
    have hstop : Begins (inLine · = false) rest := by
      rcases hrest with rfl | ⟨tail, rfl⟩ | ⟨tail, rfl⟩
      · simp [Begins]
      · exact begins_cons.2 rfl
      · exact begins_cons.2 rfl
    simp only [lineComment?, takeWhile_append hline hstop, dropWhile_append hline hstop]
    rcases hrest with rfl | ⟨tail, rfl⟩ | ⟨tail, rfl⟩ <;> rfl

private theorem blockComment?_append {body : List Char} (hbody : ¬ ['*', '/'] <:+: body ++ ['*'])
    (rest : List Char) :
    blockComment? (body ++ '*' :: '/' :: rest) = some (body ++ ['*', '/'], rest) := by
  induction body with
  | nil => rfl
  | cons c body ih =>
    have htail : ¬ ['*', '/'] <:+: body ++ ['*'] :=
      fun hclosing => hbody (hclosing.trans (List.suffix_cons c _).isInfix)
    rw [List.cons_append, blockComment?, ih htail]
    · rfl
    · -- a closing at the front would come before the last one
      rintro tail rfl hclosing
      refine hbody ?_
      cases body with
      | nil => cases hclosing
      | cons d body =>
        obtain rfl : d = '/' := (List.cons.inj hclosing).1
        exact (List.prefix_append ['*', '/'] (body ++ ['*'])).isInfix

/-- A comment is left after its first closing. -/
theorem blockComment?_eq_some_iff {text skipped rest : List Char} :
    blockComment? text = some (skipped, rest) ↔ ∃ body, ¬ ['*', '/'] <:+: body ++ ['*'] ∧
      skipped = body ++ ['*', '/'] ∧ text = skipped ++ rest := by
  constructor
  · intro h
    fun_induction blockComment? text generalizing skipped with
    | case1 tail =>
      cases h
      exact ⟨[], by decide, rfl, rfl⟩
    | case2 c text hopen ih =>
      obtain ⟨⟨skipped, rest⟩, hread, hcons⟩ := Option.map_eq_some_iff.1 h
      cases hcons
      obtain ⟨body, hbody, rfl, rfl⟩ := ih hread
      refine ⟨c :: body, fun hclosing => ?_, rfl, rfl⟩
      rcases List.infix_cons_iff.1 hclosing with hfront | hclosing
      · obtain ⟨rfl, hslash⟩ := List.cons_prefix_cons.1 hfront
        cases body with
        | nil => exact absurd hslash (by decide)
        | cons d body =>
          obtain ⟨rfl, -⟩ := List.cons_prefix_cons.1 hslash
          exact hopen _ rfl rfl
      · exact hbody hclosing
    | case3 => cases h
  · rintro ⟨body, hbody, rfl, rfl⟩
    rw [List.append_assoc]
    exact blockComment?_append hbody rest

/-- Trivia are skipped exactly where they start. -/
theorem trivia?_eq_some_iff {text skipped rest : List Char} :
    trivia? text = some (skipped, rest) ↔ Trivia skipped rest ∧ text = skipped ++ rest := by
  constructor
  · intro h
    unfold trivia? at h
    split at h
    · obtain ⟨⟨body, rest⟩, hread, hskipped⟩ := Option.map_eq_some_iff.1 h
      cases hskipped
      obtain ⟨hbody, hrest, rfl⟩ := lineComment?_eq_some_iff.1 hread
      exact ⟨.lineComment hbody hrest, rfl⟩
    · obtain ⟨⟨skipped, rest⟩, hread, hskipped⟩ := Option.map_eq_some_iff.1 h
      cases hskipped
      obtain ⟨body, hbody, rfl, rfl⟩ := blockComment?_eq_some_iff.1 hread
      exact ⟨.blockComment rest hbody, rfl⟩
    · rename_i c text _ _
      split at h
      · rename_i hc
        cases h
        refine ⟨.blanks (by simp) (forall_mem_cons_takeWhile hc text) (fun d hd => ?_), ?_⟩
        · have hstop := List.head?_dropWhile_not isSpace text
          rw [Option.mem_def.1 hd] at hstop
          simpa using hstop
        · rw [List.cons_append, List.takeWhile_append_dropWhile]
      · cases h
    · cases h
  · rintro ⟨htrivia, rfl⟩
    cases htrivia with
    | blanks hne hrun hrest =>
      obtain ⟨c, run, rfl⟩ := List.exists_cons_of_ne_nil hne
      have htail : ∀ d ∈ run, isSpace d = true := fun d hd => hrun d (List.mem_cons_of_mem _ hd)
      rw [List.cons_append, trivia?_cons_of_isSpace (hrun c List.mem_cons_self),
        takeWhile_append htail hrest, dropWhile_append htail hrest]
    | lineComment hbody hrest =>
      rw [List.cons_append, List.cons_append, trivia?,
        lineComment?_eq_some_iff.2 ⟨hbody, hrest, rfl⟩]
      rfl
    | blockComment _ hbody =>
      rw [List.cons_append, List.cons_append, trivia?,
        blockComment?_eq_some_iff.2 ⟨_, hbody, rfl, rfl⟩]
      rfl

theorem trivia?_eq_none_iff {text : List Char} : trivia? text = none ↔ ¬ StartsTrivia text := by
  rw [Option.eq_none_iff_forall_ne_some, StartsTrivia]
  simp only [← trivia?_eq_some_iff, Prod.forall, not_exists, ne_eq]

/-! ## Lexemes -/

/-- What a backslash can stand before between quotes, and what the two stand for. -/
def escapes : List (Char × Char) :=
  [('\\', '\\'), ('\'', '\''), ('"', '"'), ('n', '\n')]

/-- What can stand between quotes, and the contents that it stands for. -/
inductive Quoted (quote : Char) : List Char → List Char → Prop
  | nil : Quoted quote [] []
  | plain {c : Char} {body value : List Char} (hc : c ≠ quote ∧ c ≠ '\\' ∧ c ≠ '\n')
      (h : Quoted quote body value) : Quoted quote (c :: body) (c :: value)
  | escape {c d : Char} {body value : List Char} (hc : (c, d) ∈ escapes)
      (h : Quoted quote body value) : Quoted quote ('\\' :: c :: body) (d :: value)

/-- The texts that stand for one token: words, numbers, strings and symbols. -/
inductive Lexeme : List Char → Token → Prop
  | word {text : List Char} (h : IsWord text) : Lexeme text (.ofWord (String.ofList text))
  | number {whole places : List Char} (hne : whole ≠ []) (hwhole : ∀ c ∈ whole, c.isDigit = true)
      (hplaces : ∀ c ∈ places, c.isDigit = true) :
      Lexeme (whole ++ Number.pointed places) (.number (Number.ofParts whole places 0))
  | string {quote : Char} {body value : List Char} (hquote : quote = '\'' ∨ quote = '"')
      (h : Quoted quote body value) :
      Lexeme (quote :: (body ++ [quote])) (.text (String.ofList value))
  | symbol (s : Symbol) : Lexeme s.spelling.toList (.symbol s)

private theorem unescape?_eq_some_iff {c d : Char} : unescape? c = some d ↔ (c, d) ∈ escapes := by
  simp only [unescape?, escapes, List.mem_cons, Prod.mk.injEq, List.not_mem_nil, or_false]
  grind

/-- A string is left after the one quote that closes it. -/
theorem stringBody?_eq_some_iff {quote : Char} (hquote : quote ≠ '\\')
    {text value rest : List Char} :
    stringBody? quote text = some (value, rest) ↔
      ∃ body, Quoted quote body value ∧ text = body ++ quote :: rest := by
  constructor
  · intro h
    fun_induction stringBody? quote text generalizing value with
    | case1 c text d hc ih =>
      obtain ⟨⟨value, rest⟩, hread, hcons⟩ := Option.map_eq_some_iff.1 h
      cases hcons
      obtain ⟨body, hbody, rfl⟩ := ih hread
      exact ⟨_, .escape (unescape?_eq_some_iff.1 hc) hbody, rfl⟩
    | case2 => cases h
    | case3 c text _ hc =>
      cases h
      exact ⟨[], .nil, by rw [eq_of_beq hc]; rfl⟩
    | case4 => cases h
    | case5 c text _ hc hplain ih =>
      obtain ⟨⟨value, rest⟩, hread, hcons⟩ := Option.map_eq_some_iff.1 h
      cases hcons
      obtain ⟨body, hbody, rfl⟩ := ih hread
      exact ⟨_, .plain (by simpa [not_or] using And.intro hc hplain) hbody, rfl⟩
    | case6 => cases h
  · rintro ⟨body, hbody, rfl⟩
    induction hbody with
    | nil =>
      rw [List.nil_append, stringBody?, if_pos (beq_self_eq_true quote)]
      exact fun _ _ heq _ => absurd heq hquote
    | plain hc _ ih =>
      rw [List.cons_append, stringBody?, if_neg (by simp [hc.1]), if_neg (by simp [hc.2]), ih]
      · rfl
      · exact fun _ _ heq _ => absurd heq hc.2.1
    | escape hc _ ih =>
      rw [List.cons_append, List.cons_append, stringBody?, unescape?_eq_some_iff.2 hc]
      dsimp only
      rw [ih]
      rfl

private theorem fraction_spec (text : List Char) :
    text = Number.pointed (fraction text).1 ++ (fraction text).2 ∧
      ∀ c ∈ (fraction text).1, c.isDigit = true := by
  unfold fraction
  split
  · rename_i c text
    split
    · rename_i hc
      exact ⟨by simp [Number.pointed], forall_mem_cons_takeWhile hc text⟩
    · exact ⟨rfl, by simp⟩
  · exact ⟨rfl, by simp⟩

private theorem number_eq (c : Char) (text : List Char) :
    number c text = (.number (Number.ofParts (c :: text.takeWhile Char.isDigit)
        (fraction (text.dropWhile Char.isDigit)).1 0),
      (fraction (text.dropWhile Char.isDigit)).2) :=
  rfl

/-- What is taken is a lexeme. -/
theorem lexeme_of_lexeme? {text rest : List Char} {token : Token}
    (h : lexeme? text = some (token, rest)) :
    ∃ front, text = front ++ rest ∧ Lexeme front token := by
  unfold lexeme? at h
  split at h
  · cases h
  rename_i c text
  split at h
  · rename_i hc
    cases h
    refine ⟨_, ?_, .word (isWord_takeWhile hc text)⟩
    rw [List.cons_append, List.takeWhile_append_dropWhile]
  split at h
  · rename_i hc
    obtain ⟨htext, hplaces⟩ := fraction_spec (text.dropWhile Char.isDigit)
    rw [number_eq] at h
    cases h
    refine ⟨_, ?_, .number (by simp) (forall_mem_cons_takeWhile hc text) hplaces⟩
    rw [List.append_assoc, ← htext, List.cons_append, List.takeWhile_append_dropWhile]
  split at h
  · rename_i hc
    obtain ⟨⟨value, rest⟩, hread, hcons⟩ := Option.map_eq_some_iff.1 h
    cases hcons
    have hquote : c = '\'' ∨ c = '"' := by simpa using hc
    obtain ⟨body, hbody, rfl⟩ := (stringBody?_eq_some_iff
      (by rcases hquote with rfl | rfl <;> decide)).1 hread
    exact ⟨_, by simp, .string hquote hbody⟩
  · obtain ⟨s, hfind, hcons⟩ := Option.map_eq_some_iff.1 h
    cases hcons
    have hfits := List.find?_some hfind
    obtain ⟨tail, htail⟩ := List.isPrefixOf_iff_prefix.1 hfits
    refine ⟨_, ?_, .symbol s⟩
    rw [← htail, List.drop_left]

private theorem mem_longestFirst (s : Symbol) : s ∈ Symbol.longestFirst := by
  cases s <;> decide

private theorem spelling_injective {s t : Symbol} (h : s.spelling.toList = t.spelling.toList) :
    s = t := by
  have hnodup : (Symbol.longestFirst.map fun u => u.spelling.toList).Nodup := by decide
  exact List.inj_on_of_nodup_map hnodup (mem_longestFirst s) (mem_longestFirst t) h

/-- Of the symbols that a text begins with, the longest one is taken. -/
private theorem symbol?_append_spelling (s : Symbol) (more : List Char) :
    ∃ longer tail rest, symbol? (s.spelling.toList ++ more) = some (.symbol longer, rest) ∧
      longer.spelling.toList = s.spelling.toList ++ tail ∧ more = tail ++ rest := by
  have hsorted : Symbol.longestFirst.Pairwise fun longer shorter =>
      shorter.spelling.toList.length ≤ longer.spelling.toList.length := by
    decide
  cases hfind : Symbol.longestFirst.find? fun t =>
      t.spelling.toList.isPrefixOf (s.spelling.toList ++ more) with
  | none => exact absurd (List.find?_eq_none.1 hfind s (mem_longestFirst s)) (by simp)
  | some longer =>
    obtain ⟨hfits, before, after, hlist, hbefore⟩ := List.find?_eq_some_iff_append.1 hfind
    -- all symbols before the one that is found do not fit, and those after it are no longer
    have hlength : s.spelling.toList.length ≤ longer.spelling.toList.length := by
      have hs := mem_longestFirst s
      rw [hlist, List.mem_append, List.mem_cons] at hs
      rw [hlist, List.pairwise_append, List.pairwise_cons] at hsorted
      rcases hs with hs | rfl | hs
      · exact absurd (hbefore s hs) (by simp)
      · exact Nat.le_refl _
      · exact hsorted.2.1.1 s hs
    have hfits := List.isPrefixOf_iff_prefix.1 hfits
    obtain ⟨tail, htail⟩ :=
      List.prefix_of_prefix_length_le (List.prefix_append _ more) hfits hlength
    obtain ⟨rest, hrest⟩ := hfits
    refine ⟨longer, tail, rest, ?_, htail.symm, ?_⟩
    · rw [symbol?, hfind, Option.map_some, ← hrest, List.drop_left]
    · rw [← htail, List.append_assoc] at hrest
      exact (List.append_cancel_left hrest).symm

/-- Where digits start, the number is read as far as it goes. -/
private theorem lexeme?_append_number {whole places : List Char} (hne : whole ≠ [])
    (hwhole : ∀ c ∈ whole, c.isDigit = true) (hplaces : ∀ c ∈ places, c.isDigit = true)
    (more : List Char) :
    ∃ tail taken rest,
      lexeme? (whole ++ Number.pointed places ++ more) = some (taken, rest) ∧
        more = tail ++ rest ∧ (tail = [] → taken = .number (Number.ofParts whole places 0)) := by
  obtain ⟨c, whole, rfl⟩ := List.exists_cons_of_ne_nil hne
  obtain ⟨hc, hwhole⟩ := List.forall_mem_cons.1 hwhole
  have hread : ∀ text, lexeme? (c :: text) = some (number c text) := fun text => by
    rw [lexeme?, if_neg (by simp [isWordStart_of_isDigit hc]), if_pos hc]
  rw [List.append_assoc, List.cons_append, hread, number_eq]
  cases places with
  | nil =>
    -- more digits may follow, and a point with digits after them
    obtain ⟨hfraction, -⟩ := fraction_spec (more.dropWhile Char.isDigit)
    have hmore := List.takeWhile_append_dropWhile (p := Char.isDigit) (l := more)
    rw [show Number.pointed [] ++ more = more from rfl, List.takeWhile_append_of_pos hwhole,
      List.dropWhile_append_of_pos hwhole]
    refine ⟨more.takeWhile Char.isDigit ++
      Number.pointed (fraction (more.dropWhile Char.isDigit)).1, _, _, rfl, ?_, fun htail => ?_⟩
    · rw [List.append_assoc, ← hfraction, hmore]
    · obtain ⟨hdigits, hpoint⟩ := List.append_eq_nil_iff.1 htail
      have hplaces : (fraction (more.dropWhile Char.isDigit)).1 = [] := by
        by_contra hplaces
        simp [Number.pointed, hplaces] at hpoint
      rw [hdigits, hplaces, List.append_nil]
  | cons p places =>
    obtain ⟨hp, hplaces⟩ := List.forall_mem_cons.1 hplaces
    have hstop : Begins (Char.isDigit · = false) (Number.pointed (p :: places) ++ more) :=
      begins_cons.2 rfl
    rw [takeWhile_append hwhole hstop, dropWhile_append hwhole hstop]
    have hfraction : fraction (Number.pointed (p :: places) ++ more)
        = (p :: places ++ more.takeWhile Char.isDigit, more.dropWhile Char.isDigit) := by
      show fraction ('.' :: p :: (places ++ more)) = _
      rw [fraction, if_pos hp, List.takeWhile_append_of_pos hplaces,
        List.dropWhile_append_of_pos hplaces]
      rfl
    rw [hfraction]
    refine ⟨_, _, _, rfl, List.takeWhile_append_dropWhile.symm, fun htail => ?_⟩
    rw [htail, List.append_nil]

/-- Where a lexeme starts, one is taken that goes at least as far. -/
theorem Lexeme.lexeme?_append {front : List Char} {token : Token} (h : Lexeme front token)
    (more : List Char) :
    ∃ tail taken rest, lexeme? (front ++ more) = some (taken, rest) ∧ more = tail ++ rest ∧
      (tail = [] → taken = token) := by
  cases h with
  | word h =>
    obtain ⟨c, text, rfl⟩ := List.exists_cons_of_ne_nil h.ne_nil
    have hpart : ∀ d ∈ text, isWordPart d = true := fun d hd => h.part d (List.mem_cons_of_mem _ hd)
    rw [List.cons_append, lexeme?, if_pos (begins_cons.1 h.start),
      List.takeWhile_append_of_pos hpart, List.dropWhile_append_of_pos hpart]
    refine ⟨_, _, _, rfl, List.takeWhile_append_dropWhile.symm, fun htail => ?_⟩
    rw [htail, List.append_nil]
  | number hne hwhole hplaces => exact lexeme?_append_number hne hwhole hplaces more
  | @string quote body value hquote h =>
    have hread : stringBody? quote (body ++ quote :: more) = some (value, more) :=
      (stringBody?_eq_some_iff (by rcases hquote with rfl | rfl <;> decide)).2 ⟨body, h, rfl⟩
    refine ⟨[], _, more, ?_, rfl, fun _ => rfl⟩
    rw [List.cons_append, List.append_assoc, List.singleton_append, lexeme?,
      if_neg (by rcases hquote with rfl | rfl <;> decide),
      if_neg (by rcases hquote with rfl | rfl <;> decide), if_pos (by simpa using hquote), hread]
    rfl
  | symbol s =>
    obtain ⟨longer, tail, rest, hread, htail, hmore⟩ := symbol?_append_spelling s more
    obtain ⟨c, text, hs, -, hstart, hdigit, hsingle, hdouble, -⟩ := spelling_eq_cons s
    refine ⟨tail, .symbol longer, rest, ?_, hmore, ?_⟩
    · rw [← hread, hs, List.cons_append, lexeme?, if_neg (by simp [hstart]),
        if_neg (by simp [hdigit]), if_neg (by simp [hsingle, hdouble])]
    · rintro rfl
      rw [List.append_nil] at htail
      rw [spelling_injective htail]

/-- The longest of the lexemes that a text begins with. -/
structure Longest (text front : List Char) (token : Token) : Prop where
  lexeme : Lexeme front token
  starts : front <+: text
  length_le : ∀ other token, Lexeme other token → other <+: text → other.length ≤ front.length

/-- The lexeme that is taken is the longest one. -/
theorem lexeme?_eq_some_iff {text rest : List Char} {token : Token} :
    lexeme? text = some (token, rest) ↔
      ∃ front, Longest text front token ∧ text = front ++ rest := by
  constructor
  · intro h
    obtain ⟨front, rfl, hfront⟩ := lexeme_of_lexeme? h
    refine ⟨front, ⟨hfront, List.prefix_append front rest, ?_⟩, rfl⟩
    rintro other token' hother ⟨more, hmore⟩
    -- the same lexeme is taken from where the other one starts, and it goes as far
    obtain ⟨tail, taken, rest', hread, rfl, -⟩ := hother.lexeme?_append more
    rw [hmore, h] at hread
    cases hread
    have hlength := congrArg List.length hmore
    simp only [List.length_append] at hlength
    omega
  · rintro ⟨front, hlongest, rfl⟩
    obtain ⟨tail, taken, rest', hread, rfl, htail⟩ := hlongest.lexeme.lexeme?_append rest
    obtain ⟨other, htext, hother⟩ := lexeme_of_lexeme? hread
    -- what is taken is itself a lexeme, so nothing is left to add to the longest one
    have hlength := hlongest.length_le other taken hother ⟨rest', htext.symm⟩
    have htext := congrArg List.length htext
    simp only [List.length_append] at htext
    obtain rfl : tail = [] := List.length_eq_zero_iff.1 (by omega)
    rw [hread, htail rfl, List.nil_append]

theorem lexeme?_eq_none_iff {text : List Char} :
    lexeme? text = none ↔ ¬ ∃ front token, Lexeme front token ∧ front <+: text := by
  constructor
  · rintro h ⟨front, token, hfront, more, rfl⟩
    obtain ⟨tail, taken, rest, hread, -⟩ := hfront.lexeme?_append more
    rw [h] at hread
    cases hread
  · intro h
    rw [Option.eq_none_iff_forall_ne_some]
    rintro ⟨token, rest⟩ hread
    obtain ⟨front, htext, hfront⟩ := lexeme_of_lexeme? hread
    exact h ⟨front, token, hfront, rest, htext.symm⟩

/-! ## No lexeme goes over the end of a line -/

private theorem Quoted.feed_not_mem {quote : Char} {body value : List Char}
    (h : Quoted quote body value) : '\n' ∉ body := by
  induction h with
  | nil => exact List.not_mem_nil
  | plain hc _ ih => exact List.not_mem_cons_of_ne_of_not_mem hc.2.2.symm ih
  | escape hc _ ih =>
    refine List.not_mem_cons_of_ne_of_not_mem (by decide)
      (List.not_mem_cons_of_ne_of_not_mem ?_ ih)
    rintro rfl
    simp [escapes] at hc

theorem Lexeme.count_feed {front : List Char} {token : Token} (h : Lexeme front token) :
    front.count '\n' = 0 := by
  rw [List.count_eq_zero]
  cases h with
  | word h => exact fun hmem => absurd (h.part _ hmem) (by decide)
  | number _ hwhole hplaces =>
    have hpoint : '\n' ∉ Number.pointed _ := fun hmem => by
      rw [Number.pointed] at hmem
      split at hmem
      · cases hmem
      · rcases List.mem_cons.1 hmem with heq | hmem
        · exact absurd heq (by decide)
        · exact absurd (hplaces _ hmem) (by decide)
    rw [List.mem_append, not_or]
    exact ⟨fun hmem => absurd (hwhole _ hmem) (by decide), hpoint⟩
  | @string quote _ _ hquote h =>
    have hne : '\n' ≠ quote := by rcases hquote with rfl | rfl <;> decide
    simp [hne, h.feed_not_mem]
  | symbol s => cases s <;> decide

/-! ## Pieces -/

/-- A piece of a text: trivia, or a lexeme with its token. -/
inductive Piece where
  | trivia (text : List Char)
  | lexeme (text : List Char) (token : Token)

namespace Piece

/-- The characters of a piece. -/
def text : Piece → List Char
  | trivia text => text
  | lexeme text _ => text

/-- The token that a piece stands for. -/
def token? : Piece → Option Token
  | trivia _ => none
  | lexeme _ token => some token

/-- The tokens of pieces that come after the text `before`.  The line of a token is
that of its first character. -/
def place (before : List Char) : List Piece → List PlacedToken
  | [] => []
  | trivia text :: pieces => place (before ++ text) pieces
  | lexeme text token :: pieces =>
    ⟨token, 1 + before.count '\n'⟩ :: place (before ++ text) pieces

theorem map_token_place (before : List Char) (pieces : List Piece) :
    (place before pieces).map PlacedToken.token = pieces.filterMap token? := by
  induction pieces generalizing before with
  | nil => rfl
  | cons piece pieces ih =>
    cases piece with
    | trivia text => exact ih _
    | lexeme text token => exact congrArg (token :: ·) (ih _)

end Piece

/-- A text falls into pieces up to where `rest` begins: trivia where some start, and
otherwise the longest lexeme. -/
inductive Munches : List Char → List Piece → List Char → Prop
  | done (text : List Char) : Munches text [] text
  | skip {skipped text rest : List Char} {pieces : List Piece} (htrivia : Trivia skipped text)
      (h : Munches text pieces rest) : Munches (skipped ++ text) (.trivia skipped :: pieces) rest
  | take {front text rest : List Char} {token : Token} {pieces : List Piece}
      (hplain : ¬ StartsTrivia (front ++ text)) (hlongest : Longest (front ++ text) front token)
      (h : Munches text pieces rest) :
      Munches (front ++ text) (.lexeme front token :: pieces) rest

/-- The text goes on, with neither trivia nor a lexeme. -/
structure Stuck (text : List Char) : Prop where
  ne_nil : text ≠ []
  no_trivia : ¬ StartsTrivia text
  no_lexeme : ¬ ∃ front token, Lexeme front token ∧ front <+: text

/-- No character is left out. -/
theorem Munches.text_eq {text rest : List Char} {pieces : List Piece}
    (h : Munches text pieces rest) : text = pieces.flatMap Piece.text ++ rest := by
  induction h with
  | done => rfl
  | skip _ _ ih => rw [ih, List.flatMap_cons, List.append_assoc]; rfl
  | take _ _ _ ih => rw [ih, List.flatMap_cons, List.append_assoc]; rfl

/-- Every text falls into pieces up to its end or up to a point where it is stuck. -/
theorem exists_munches (text : List Char) :
    ∃ pieces rest, Munches text pieces rest ∧ (rest = [] ∨ Stuck rest) := by
  induction 1, text using scan.induct with
  | case1 line text hempty =>
    exact ⟨[], text, .done text, .inl (List.isEmpty_iff.1 hempty)⟩
  | case2 line text hempty skipped rest ht ih =>
    obtain ⟨pieces, last, hpieces, hlast⟩ := ih
    obtain ⟨htrivia, rfl⟩ := trivia?_eq_some_iff.1 ht
    exact ⟨_, last, .skip htrivia hpieces, hlast⟩
  | case3 line text hempty ht token rest hl ih =>
    obtain ⟨pieces, last, hpieces, hlast⟩ := ih
    obtain ⟨front, hlongest, rfl⟩ := lexeme?_eq_some_iff.1 hl
    exact ⟨_, last, .take (trivia?_eq_none_iff.1 ht) hlongest hpieces, hlast⟩
  | case4 line text hempty ht hl =>
    exact ⟨[], text, .done text, .inr ⟨by simpa using hempty, trivia?_eq_none_iff.1 ht,
      lexeme?_eq_none_iff.1 hl⟩⟩

/-- The scan goes over the pieces one by one.  It counts the line feeds in trivia only,
and there are no others. -/
theorem Munches.scan_eq {text rest : List Char} {pieces : List Piece}
    (h : Munches text pieces rest) (before : List Char) :
    scan (1 + before.count '\n') text
      = (scan (1 + (before ++ pieces.flatMap Piece.text).count '\n') rest).map
          (Piece.place before pieces ++ ·) := by
  induction h generalizing before with
  | done text =>
    rw [List.flatMap_nil, List.append_nil]
    cases scan (1 + before.count '\n') text <;> rfl
  | @skip skipped text rest pieces htrivia h ih =>
    rw [scan_of_trivia (trivia?_eq_some_iff.2 ⟨htrivia, rfl⟩), Nat.add_assoc,
      ← List.count_append, ih, List.append_assoc]
    rfl
  | @take front text rest token pieces hplain hlongest h ih =>
    have hcount : (before ++ front).count '\n' = before.count '\n' := by
      rw [List.count_append, hlongest.lexeme.count_feed, Nat.add_zero]
    rw [scan_of_lexeme (trivia?_eq_none_iff.2 hplain) (lexeme?_eq_some_iff.2 ⟨_, hlongest, rfl⟩),
      ← hcount, ih, hcount, List.flatMap_cons, Piece.text, ← List.append_assoc]
    cases scan (1 + (before ++ front ++ pieces.flatMap Piece.text).count '\n') rest <;> rfl

end Lexer

open Lexer

private theorem tokenize_of_munches {source : String} {pieces : List Piece}
    (h : Munches source.toList pieces []) : tokenize source = .ok (Piece.place [] pieces) := by
  refine (h.scan_eq []).trans ?_
  rw [scan_nil]
  exact congrArg Except.ok (List.append_nil _)

private theorem tokenize_of_stuck {source : String} {pieces : List Piece} {rest : List Char}
    (h : Munches source.toList pieces rest) (hstuck : Stuck rest) :
    tokenize source = .error (.malformed (1 + (pieces.flatMap Piece.text).count '\n')
      (.unexpectedInput (String.ofList (rest.take reportLength)))) := by
  refine (h.scan_eq []).trans ?_
  rw [scan_of_stuck hstuck.ne_nil (trivia?_eq_none_iff.2 hstuck.no_trivia)
    (lexeme?_eq_none_iff.2 hstuck.no_lexeme)]
  rfl

/-- A text is read if it falls into pieces up to its end. -/
theorem tokenize_eq_ok_iff {source : String} {placed : List PlacedToken} :
    tokenize source = .ok placed ↔
      ∃ pieces, Munches source.toList pieces [] ∧ placed = Piece.place [] pieces := by
  constructor
  · intro h
    obtain ⟨pieces, rest, hpieces, rfl | hstuck⟩ := exists_munches source.toList
    · rw [tokenize_of_munches hpieces] at h
      exact ⟨pieces, hpieces, (Except.ok.inj h).symm⟩
    · rw [tokenize_of_stuck hpieces hstuck] at h
      cases h
  · rintro ⟨pieces, hpieces, rfl⟩
    exact tokenize_of_munches hpieces

/-- A text is refused where it is stuck. -/
theorem tokenize_eq_error_iff {source : String} {fault : Fault} :
    tokenize source = .error fault ↔
      ∃ pieces rest, Munches source.toList pieces rest ∧ Stuck rest ∧
        fault = .malformed (1 + (pieces.flatMap Piece.text).count '\n')
          (.unexpectedInput (String.ofList (rest.take reportLength))) := by
  constructor
  · intro h
    obtain ⟨pieces, rest, hpieces, rfl | hstuck⟩ := exists_munches source.toList
    · rw [tokenize_of_munches hpieces] at h
      cases h
    · rw [tokenize_of_stuck hpieces hstuck] at h
      exact ⟨pieces, rest, hpieces, hstuck, (Except.error.inj h).symm⟩
  · rintro ⟨pieces, rest, hpieces, hstuck, rfl⟩
    exact tokenize_of_stuck hpieces hstuck

/-- Any text is cut from the left into trivia and longest lexemes, trivia first.  If it
falls into such pieces up to its end, their tokens are returned, and only then.
Otherwise the first point where neither trivia nor a lexeme starts is reported. -/
theorem tokenize_munches (source : String) :
    (∀ tokens, (∃ placed, tokenize source = .ok placed ∧
          placed.map PlacedToken.token = tokens) ↔
        ∃ pieces, Munches source.toList pieces [] ∧ pieces.filterMap Piece.token? = tokens) ∧
      (∀ fault, tokenize source = .error fault ↔
        ∃ pieces rest, Munches source.toList pieces rest ∧ Stuck rest ∧
          fault = .malformed (1 + (pieces.flatMap Piece.text).count '\n')
            (.unexpectedInput (String.ofList (rest.take reportLength)))) := by
  refine ⟨fun tokens => ⟨?_, ?_⟩, fun fault => tokenize_eq_error_iff⟩
  · rintro ⟨placed, hplaced, rfl⟩
    obtain ⟨pieces, hpieces, rfl⟩ := tokenize_eq_ok_iff.1 hplaced
    exact ⟨pieces, hpieces, (Piece.map_token_place [] pieces).symm⟩
  · rintro ⟨pieces, hpieces, rfl⟩
    exact ⟨_, tokenize_eq_ok_iff.2 ⟨pieces, hpieces, rfl⟩, Piece.map_token_place [] pieces⟩

end TraceGraph
