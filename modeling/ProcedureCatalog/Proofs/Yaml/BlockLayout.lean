/-
# Keys and values in blocks

The reader goes from the start of one key to the start of the next; on the way it adds the tokens of
the key and its value, and the starts and ends of the blocks that the indentation shows.

* `Reaches` : the reader comes from one layout to another.
* `reaches_key` : a key with its colon, which opens a block where it stands right of the block
  around it.
* `reaches_value` : a value in a style that fits it, up to the next line.
-/
import ProcedureCatalog.Proofs.Yaml.WrittenScalars

namespace ProcedureCatalog.Yaml

namespace Layout

/-! ## Runs -/

/-- The reader comes from one layout to another. The fuel is more than the text that is left, and
stays so. -/
def Reaches (s s' : Layout) : Prop :=
  ∀ fuel, s.cursor.rest.length < fuel →
    ∃ fuel', s'.cursor.rest.length < fuel' ∧ run fuel s = run fuel' s'

theorem Reaches.trans {s s' s'' : Layout} (h : Reaches s s') (h' : Reaches s' s'') :
    Reaches s s'' := by
  intro fuel hfuel
  obtain ⟨fuel', hfuel', heq⟩ := h fuel hfuel
  obtain ⟨fuel'', hfuel'', heq'⟩ := h' fuel' hfuel'
  exact ⟨fuel'', hfuel'', heq.trans heq'⟩

/-- The gap before the next token means nothing by itself. -/
theorem run_congr {s s' : Layout} (h : s.skipGap = s'.skipGap) (fuel : Nat) :
    run fuel s = run fuel s' := by
  cases fuel with
  | zero => rfl
  | succ fuel => rw [run, run, h]

theorem Reaches.of_skipGap {s s' : Layout} (h : s.skipGap = s'.skipGap)
    (hle : s'.cursor.rest.length ≤ s.cursor.rest.length) : Reaches s s' :=
  fun fuel hfuel => ⟨fuel, hle.trans_lt hfuel, run_congr h fuel⟩

/-- One token is taken. -/
theorem Reaches.of_take {s t u s' : Layout} {c : Char} {rest : List Char} (hgap : s.skipGap = t)
    (hkeys : t.dropEndedKeys = some t) (hrest : t.cursor.rest = c :: rest)
    (htake : (t.closeBlocks (t.cursor.column + 1)).take c rest = some u)
    (hbehind : u.skipGap = s'.skipGap) (hlt : s'.cursor.rest.length < s.cursor.rest.length) :
    Reaches s s' := by
  intro fuel hfuel
  obtain ⟨n, rfl⟩ : ∃ n, fuel = n + 1 := ⟨fuel - 1, by omega⟩
  refine ⟨n, by omega, ?_⟩
  rw [run, hgap, hkeys]
  simp only [Option.bind_eq_bind, Option.bind_some, hrest, htake]
  exact run_congr hbehind n

/-! ## Layouts without brackets -/

/-- A layout outside brackets, without a possible key. -/
def inBlocks (allowed : Bool) (cursor : Cursor) (margins : List Nat) (tokens : List Token) :
    Layout :=
  ⟨cursor, margins, allowed, none, [], tokens.toArray⟩

/-- The text goes on with a token, or ends. -/
def StartsToken (rest : List Char) : Prop := ∀ c ∈ rest.head?, isGap c = false ∧ c ≠ '#'

theorem startsToken_cons {c : Char} {rest : List Char} :
    StartsToken (c :: rest) ↔ isGap c = false ∧ c ≠ '#' := by
  simp [StartsToken]

section Steps

variable {allowed : Bool} {margins : List Nat} {tokens : List Token} {rest : List Char}
  {p : Position}

/-- Before a token there is no gap. -/
theorem gap_eq_self (hrest : StartsToken rest) (flow allowed : Bool) (p : Position) :
    gap flow allowed false rest p = (allowed, ⟨rest, p⟩) := by
  cases rest with
  | nil => rfl
  | cons c rest =>
    obtain ⟨hgap, hhash⟩ := hrest c rfl
    have hblank := isBlank_eq_false_of_isGap_eq_false hgap
    rw [isBlank, Bool.or_eq_false_iff] at hblank
    rw [gap, isBreak_eq_false_of_isGap_eq_false hgap, beq_eq_false_iff_ne.2 hhash, hblank.1,
      hblank.2]
    rfl

/-- A gap without tabs and comments. -/
theorem gap_append {cs : List Char} (hcs : ∀ c ∈ cs, c = ' ' ∨ isBreak c = true)
    (hrest : StartsToken rest) (allowed : Bool) (p : Position) :
    gap false allowed false (cs ++ rest) p = (allowed || cs.any isBreak, ⟨rest, p.behind cs⟩) := by
  induction cs generalizing allowed p with
  | nil =>
    rw [List.nil_append, List.any_nil, Bool.or_false]
    exact gap_eq_self hrest false allowed p
  | cons c cs ih =>
    have hcs' : ∀ d ∈ cs, d = ' ' ∨ isBreak d = true := fun d hd =>
      hcs d (List.mem_cons_of_mem c hd)
    rw [List.cons_append, gap, List.any_cons]
    rcases hcs c List.mem_cons_self with rfl | hbreak
    · have hspace : isBreak ' ' = false := by decide
      rw [hspace, Bool.false_or]
      exact ih hcs' allowed _
    · rw [hbreak, if_pos rfl, ih hcs']
      simp

theorem skipGap_inBlocks {cs : List Char} (hcs : ∀ c ∈ cs, c = ' ' ∨ isBreak c = true)
    (hrest : StartsToken rest) : (inBlocks allowed ⟨cs ++ rest, p⟩ margins tokens).skipGap =
      inBlocks (allowed || cs.any isBreak) ⟨rest, p.behind cs⟩ margins tokens := by
  simp only [skipGap, inBlocks, inFlow, List.isEmpty_nil, Bool.not_true, gap_append hcs hrest]

theorem dropEndedKeys_inBlocks (cursor : Cursor) :
    (inBlocks allowed cursor margins tokens).dropEndedKeys =
      some (inBlocks allowed cursor margins tokens) :=
  rfl

/-- The blocks that stand right of a column end there. -/
theorem closeBlocks_inBlocks {outer inner : List Nat} {margin : Nat}
    (hinner : ∀ m ∈ inner, margin < m) (houter : ∀ m ∈ outer.head?, m ≤ margin) (cursor : Cursor) :
    (inBlocks allowed cursor (inner ++ outer) tokens).closeBlocks margin =
      inBlocks allowed cursor outer (tokens ++ List.replicate inner.length .blockEnd) := by
  have hclosed : (inner ++ outer).takeWhile (margin < ·) = inner := by
    rw [List.takeWhile_append_of_pos fun m hm => decide_eq_true (hinner m hm)]
    cases outer with
    | nil => simp
    | cons m outer =>
      rw [List.takeWhile_cons_of_neg (by simpa using houter m rfl), List.append_nil]
  simp only [closeBlocks, inBlocks, inFlow, List.isEmpty_nil, Bool.not_true, Bool.false_eq_true,
    if_false, hclosed, List.drop_left]
  rw [← List.toArray_replicate, List.append_toArray]

/-- No block ends right of all that are open. -/
theorem closeBlocks_eq_self {s : Layout} {margin : Nat} (h : ∀ m ∈ s.margins.head?, m ≤ margin) :
    s.closeBlocks margin = s := by
  have hnone : s.margins.takeWhile (margin < ·) = [] := by
    cases hmargins : s.margins with
    | nil => rfl
    | cons m outer =>
      rw [hmargins] at h
      rw [List.takeWhile_cons_of_neg (by simpa using h m rfl)]
  rw [closeBlocks]
  split
  · rfl
  · simp only [hnone, List.length_nil, List.drop_zero, Array.replicate_zero, Array.append_empty]

/-! ## Plain scalars -/

/-- A character that starts a plain scalar. -/
structure StartsPlain (c : Char) (rest : List Char) : Prop where
  notIndicator : c ∉ startIndicators
  notAlone : c ∈ ['-', '?', ':'] → atGap rest = false
  notGap : isGap c = false

/-- A plain scalar is taken as such. -/
theorem take_plain {s : Layout} {c : Char} (h : StartsPlain c rest) (hflow : s.outerKeys = [])
    (hmark : s.cursor.atDocumentMark = false) : s.take c rest = s.takePlain := by
  have hne : ∀ d ∈ startIndicators, (c == d) = false := fun d hd =>
    beq_eq_false_iff_ne.2 fun heq => h.notIndicator (heq ▸ hd)
  have halone : ∀ d ∈ ['-', '?', ':'], (c == d && atGap rest) = false := fun d hd => by
    rw [Bool.and_eq_false_imp, beq_iff_eq]
    rintro rfl
    exact h.notAlone hd
  have hplain : startsPlain false c rest = true := by
    have hrest : c ∈ ['-', '?', ':'] → atGap rest = false ∧ rest.head?.any isBlank = false := by
      intro hmem
      have hgap := h.notAlone hmem
      cases rest with
      | nil => exact absurd hgap (by decide)
      | cons d rest => exact ⟨hgap, isBlank_eq_false_of_isGap_eq_false hgap⟩
    rw [startsPlain]
    split_ifs with hdash hother
    · rw [(hrest (by simp [beq_iff_eq.1 hdash])).2]
      rfl
    · rw [(hrest (by simp at hother ⊢; tauto)).1]
      rfl
    · rw [List.contains_eq_mem, decide_eq_false h.notIndicator, h.notGap]
      rfl
  have hinFlow : s.inFlow = false := by rw [inFlow, hflow]; rfl
  simp only [take, hmark, hinFlow, hne '%' (by decide), hne '[' (by decide), hne ']' (by decide),
    hne '\x7b' (by decide), hne '\x7d' (by decide), hne ',' (by decide), hne '*' (by decide),
    hne '&' (by decide), hne '!' (by decide), hne '|' (by decide), hne '>' (by decide),
    hne '\x27' (by decide), hne '"' (by decide), halone '-' (by decide), halone '?' (by decide),
    halone ':' (by decide), hplain, Bool.and_false, Bool.false_and, Bool.false_or,
    Bool.false_eq_true, if_false, if_true]

/-- A plain scalar that is read, where a key is noted or none may start. -/
theorem takePlain_eq {s s' : Layout} (hnote : s.noteKey = some s') {scalar : ScalarRead}
    (hread : plain? s'.inFlow s'.margin s'.cursor = some scalar) : s.takePlain =
      some { (s'.push (.scalar .plain scalar.text)).allowKey scalar.newLine with
        cursor := scalar.after } := by
  rw [takePlain, hnote]
  change (plain? s'.inFlow s'.margin s'.cursor).bind _ = _
  rw [hread]
  rfl

/-! ## Keys -/

/-- A name that can be a key: letters and digits, on one line and not too long. -/
structure IsName (name : List Char) : Prop where
  ne_nil : name ≠ []
  chars : ∀ c ∈ name, isKeyChar c = true
  length_le : name.length ≤ 1024

theorem IsName.fits {name : List Char} (h : IsName name) : Fits .plain name :=
  fits_plain_of_isKeyChar h.ne_nil h.chars

theorem IsName.notGap {name : List Char} (h : IsName name) : ∀ c ∈ name, isGap c = false :=
  fun c hc => isGap_eq_false_of_isKeyChar (h.chars c hc)

theorem IsName.oneLine {name : List Char} (h : IsName name) : OneLine name := fun c hc =>
  isBreak_eq_false_of_isGap_eq_false (h.notGap c hc)

theorem IsName.startsToken {name : List Char} (h : IsName name) (rest : List Char) :
    StartsToken (name ++ rest) := by
  obtain ⟨c, more, rfl⟩ := List.exists_cons_of_ne_nil h.ne_nil
  refine startsToken_cons.2 ⟨h.notGap c List.mem_cons_self, ?_⟩
  rintro rfl
  exact absurd (h.chars '#' List.mem_cons_self) (by decide)

/-- The layout behind a name that may be a key. -/
def behindName (name : List Char) (rest : List Char) (p : Position) (margins : List Nat)
    (tokens : List Token) : Layout :=
  { inBlocks false ⟨':' :: rest, p.behind name⟩ margins (tokens ++ [.scalar .plain name]) with
    key := some ⟨margins.head?.getD 0 == p.column + 1, tokens.length, p⟩ }

theorem atDocumentMark_eq_false_of_head {c : Char} (h : c ≠ '-' ∧ c ≠ '.') (rest : List Char)
    (p : Position) : (Cursor.mk (c :: rest) p).atDocumentMark = false := by
  have hmarks : documentMarks.contains ((c :: rest).take 3) = false := by
    simp [documentMarks, h.1, h.2]
  simp only [Cursor.atDocumentMark, hmarks, Bool.and_false, Bool.false_and]

/-- A name is taken as a possible key. -/
theorem take_name {c : Char} {name : List Char} (hname : IsName (c :: name))
    (hrest : atGap rest = true) :
    (inBlocks true ⟨c :: (name ++ ':' :: rest), p⟩ margins tokens).take c (name ++ ':' :: rest) =
      some (behindName (c :: name) rest p margins tokens) := by
  obtain ⟨-, -, hindicator, hsign⟩ := isKeyChar_spec (hname.chars c List.mem_cons_self)
  simp only [List.mem_cons, List.not_mem_nil, or_false, not_or] at hsign
  obtain ⟨hdash, hquestion, hcolon, hdot⟩ := hsign
  have hmark := atDocumentMark_eq_false_of_head ⟨hdash, hdot⟩ (name ++ ':' :: rest) p
  have hstarts : StartsPlain c (name ++ ':' :: rest) := by
    refine ⟨hindicator, fun hmem => ?_, hname.notGap c List.mem_cons_self⟩
    simp only [List.mem_cons, List.not_mem_nil, or_false] at hmem
    tauto
  obtain ⟨hwords, -, -⟩ := hname.fits
  have hread := plain?_key hname.notGap hname.ne_nil hwords.lastColon hwords.noHash hrest
    (margins.head?.getD 0) hmark
  have hnote : (inBlocks true ⟨c :: (name ++ ':' :: rest), p⟩ margins tokens).noteKey =
      some { inBlocks true ⟨c :: (name ++ ':' :: rest), p⟩ margins tokens with
        key := some ⟨margins.head?.getD 0 == p.column + 1, tokens.length, p⟩ } := rfl
  rw [take_plain hstarts rfl hmark, takePlain_eq hnote hread]
  simp only [behindName, inBlocks, push, allowKey, List.push_toArray]

/-- Before a token there is no gap. -/
theorem skipGap_eq_self {s : Layout} (h : StartsToken s.cursor.rest) : s.skipGap = s := by
  simp only [skipGap, gap_eq_self h]

/-- A name does not end before its colon. -/
theorem dropEndedKeys_behindName {name : List Char} (h : IsName name) :
    (behindName name rest p margins tokens).dropEndedKeys =
      some (behindName name rest p margins tokens) := by
  have hlength := h.length_le
  have hkeep : ∀ needed before, keepKey? (p.behind name) (some ⟨needed, before, p⟩) =
      some (some ⟨needed, before, p⟩) := by
    intro needed before
    rw [keepKey?, Position.behind_of_oneLine h.oneLine, if_neg]
    simp only [Bool.or_eq_true, decide_eq_true_eq]
    omega
  rw [dropEndedKeys]
  simp only [behindName, inBlocks, hkeep]
  rfl

/-- Tokens are put before the last ones. -/
theorem insert_eq {s : Layout} (before behind : List Token)
    (h : s.tokens = (before ++ behind).toArray) (new : List Token) :
    s.insert before.length new = { s with tokens := (before ++ (new ++ behind)).toArray } := by
  simp [insert, h]

/-- The blocks behind a key at a column: it opens one where it stands right of the others. -/
def openedMargins (column : Nat) (margins : List Nat) : List Nat :=
  if margins.head?.getD 0 ≤ column then (column + 1) :: margins else margins

/-- The token of the block that a key at a column opens. -/
def openedTokens (column : Nat) (margins : List Nat) : List Token :=
  if margins.head?.getD 0 ≤ column then [.blockMappingStart] else []

/-- A block is opened before the key, or not. -/
theorem openBlock_behindName {name : List Char} : ((behindName name rest p margins tokens).insert
      tokens.length [.key]).openBlock p.column tokens.length .blockMappingStart =
    { behindName name rest p (openedMargins p.column margins) tokens with
      key := some ⟨margins.head?.getD 0 == p.column + 1, tokens.length, p⟩
      tokens := (tokens ++ (openedTokens p.column margins ++
        [Token.key, .scalar .plain name])).toArray } := by
  rw [insert_eq tokens [.scalar .plain name] rfl, openBlock]
  by_cases hopen : margins.head?.getD 0 ≤ p.column
  · rw [if_pos (by rw [Bool.and_eq_true, decide_eq_true_eq]; exact ⟨rfl, hopen⟩),
      insert_eq tokens [.key, .scalar .plain name] rfl]
    rw [openedMargins, openedTokens, if_pos hopen, if_pos hopen]
    rfl
  · rw [if_neg (by rw [Bool.and_eq_true, decide_eq_true_eq]; exact fun h => hopen h.2),
      openedMargins, openedTokens, if_neg hopen, if_neg hopen]
    rfl

/-- The colon makes a key of the name before it. -/
theorem take_colon {name : List Char} (hrest : atGap rest = true) :
    (behindName name rest p margins tokens).take ':' rest =
      some (inBlocks false ⟨rest, p.behind (name ++ [':'])⟩ (openedMargins p.column margins)
        (tokens ++ (openedTokens p.column margins ++ [.key, .scalar .plain name, .value]))) := by
  have hmark : (behindName name rest p margins tokens).cursor.atDocumentMark = false :=
    atDocumentMark_eq_false_of_head (by decide) rest _
  have htake : (behindName name rest p margins tokens).take ':' rest =
      (behindName name rest p margins tokens).takeColon := by
    rw [take, hmark, hrest]
    simp
  have hpast : (p.behind name).past ':' = p.behind (name ++ [':']) :=
    (Position.behind_append p name [':']).symm
  rw [htake]
  change some (({ ((behindName name rest p margins tokens).insert tokens.length
    [.key]).openBlock p.column tokens.length .blockMappingStart with
      key := none }.allowKey false).pushSign .value) = _
  rw [openBlock_behindName]
  simp only [behindName, inBlocks, allowKey, pushSign, push, List.push_toArray, Cursor.skip, hpast,
    List.append_assoc, List.cons_append, List.nil_append]

variable (tokens) in
/-- A key is read with its colon. The blocks that end before it end, and it may open one. -/
theorem reaches_key {gap name : List Char} (hgap : ∀ c ∈ gap, c = ' ' ∨ isBreak c = true)
    (hallowed : (allowed || gap.any isBreak) = true) (hname : IsName name)
    (hrest : atGap rest = true) (inner outer : List Nat)
    (hinner : ∀ m ∈ inner, (p.behind gap).column + 1 < m)
    (houter : ∀ m ∈ outer.head?, m ≤ (p.behind gap).column + 1) :
    Reaches (inBlocks allowed ⟨gap ++ (name ++ ':' :: rest), p⟩ (inner ++ outer) tokens)
      (inBlocks false ⟨rest, p.behind (gap ++ (name ++ [':']))⟩
        (openedMargins (p.behind gap).column outer)
        (tokens ++ (List.replicate inner.length .blockEnd ++
          (openedTokens (p.behind gap).column outer ++ [.key, .scalar .plain name, .value])))) := by
  obtain ⟨c, more, rfl⟩ := List.exists_cons_of_ne_nil hname.ne_nil
  have hstart : StartsToken (c :: more ++ ':' :: rest) := hname.startsToken _
  have hcolonStart : StartsToken (':' :: rest) := startsToken_cons.2 (by decide)
  generalize htokens : tokens ++ List.replicate inner.length .blockEnd = tokens'
  have htaken : Reaches (inBlocks allowed ⟨gap ++ (c :: more ++ ':' :: rest), p⟩ (inner ++ outer)
      tokens) (behindName (c :: more) rest (p.behind gap) outer tokens') := by
    refine Reaches.of_take (skipGap_inBlocks hgap hstart) (dropEndedKeys_inBlocks _) rfl ?_
      rfl ?_
    · have hclose : (inBlocks true ⟨c :: more ++ ':' :: rest, p.behind gap⟩ (inner ++ outer)
          tokens).closeBlocks ((p.behind gap).column + 1) =
            inBlocks true ⟨c :: more ++ ':' :: rest, p.behind gap⟩ outer tokens' := by
        rw [closeBlocks_inBlocks hinner houter, htokens]
      rw [hallowed]
      exact (congrArg (take · c (more ++ ':' :: rest)) hclose).trans (take_name hname hrest)
    · simp only [behindName, inBlocks, List.length_append, List.length_cons]
      omega
  have hcolon : Reaches (behindName (c :: more) rest (p.behind gap) outer tokens')
      (inBlocks false ⟨rest, (p.behind gap).behind (c :: more ++ [':'])⟩
        (openedMargins (p.behind gap).column outer) (tokens' ++
          (openedTokens (p.behind gap).column outer ++
            [.key, .scalar .plain (c :: more), .value]))) := by
    refine Reaches.of_take (skipGap_eq_self hcolonStart) (dropEndedKeys_behindName hname) rfl ?_
      rfl ?_
    · rw [closeBlocks_eq_self]
      · exact take_colon hrest
      · intro m hm
        have hle := houter m hm
        have hcolumn := Position.column_behind hname.oneLine (p.behind gap)
        change m ≤ ((p.behind gap).behind (c :: more)).column + 1
        omega
    · simp only [behindName, inBlocks, List.length_cons]
      omega
  have hreached := htaken.trans hcolon
  rwa [← htokens, List.append_assoc, ← Position.behind_append] at hreached

/-! ## Values -/

/-- A value that is taken with a part of the gap behind it. -/
theorem reaches_of_take {c : Char} {more gap : List Char} {count : Nat} {p' q : Position}
    {tokens' : List Token} {allowed' : Bool} (hmargins : ∀ m ∈ margins.head?, m ≤ p.column)
    (hstart : StartsToken (c :: more)) (hrest : StartsToken rest)
    (hgap : ∀ d ∈ gap, d = ' ' ∨ isBreak d = true)
    (htake : (inBlocks false ⟨c :: more, p.past ' '⟩ margins tokens).take c more =
      some (inBlocks allowed' ⟨gap ++ rest, q⟩ margins tokens'))
    (hallowed : (allowed' || gap.any isBreak) = true)
    (hplace : q.behind gap = p'.behind (spaces count))
    (hlength : (spaces count ++ rest).length ≤ more.length) :
    Reaches (inBlocks false ⟨' ' :: c :: more, p⟩ margins tokens)
      (inBlocks true ⟨spaces count ++ rest, p'⟩ margins tokens') := by
  have hspaces : ∀ d ∈ spaces count, d = ' ' ∨ isBreak d = true := fun d hd =>
    .inl (eq_space_of_mem_spaces hd)
  have hblank : ∀ d ∈ [' '], d = ' ' ∨ isBreak d = true := by simp
  have hskip : (inBlocks false ⟨' ' :: c :: more, p⟩ margins tokens).skipGap =
      inBlocks false ⟨c :: more, p.past ' '⟩ margins tokens :=
    skipGap_inBlocks hblank hstart
  refine Reaches.of_take hskip (dropEndedKeys_inBlocks _) rfl ?_
    (u := inBlocks allowed' ⟨gap ++ rest, q⟩ margins tokens') ?_ ?_
  · rw [closeBlocks_eq_self, htake]
    intro m hm
    have hle := hmargins m hm
    have hcolumn : (p.past ' ').column = p.column + 1 := Position.column_past (by decide) p
    change m ≤ (p.past ' ').column + 1
    omega
  · rw [skipGap_inBlocks hgap hrest, skipGap_inBlocks hspaces hrest, hallowed, hplace, Bool.true_or]
  · simp only [inBlocks, List.length_cons]
    omega

/-- A scalar in quotes is taken as it is read. -/
theorem take_quoted {quote : Char} {style : ScalarStyle} {more text : List Char} {after : Cursor}
    (hstyle : quote = '\x27' ∧ style = .singleQuoted ∨ quote = '"' ∧ style = .doubleQuoted)
    (hread : quoted? quote ⟨quote :: more, p⟩ = some (text, after)) :
    (inBlocks false ⟨quote :: more, p⟩ margins tokens).take quote more =
      some (inBlocks false after margins (tokens ++ [.scalar style text])) := by
  have hnamed : (inBlocks false ⟨quote :: more, p⟩ margins tokens).take quote more =
      (inBlocks false ⟨quote :: more, p⟩ margins tokens).takeNamed fun cursor =>
        (quoted? quote cursor).map fun read => (.scalar style read.1, read.2) := by
    have hmark : ∀ quote, quote ≠ '-' ∧ quote ≠ '.' →
        (inBlocks false ⟨quote :: more, p⟩ margins tokens).cursor.atDocumentMark = false :=
      fun _ hne => atDocumentMark_eq_false_of_head hne more p
    rcases hstyle with ⟨rfl, rfl⟩ | ⟨rfl, rfl⟩ <;> rw [take, hmark _ (by decide)] <;> simp
  rw [hnamed, takeNamed]
  change ((quoted? quote ⟨quote :: more, p⟩).map _).bind _ = _
  rw [hread]
  simp only [inBlocks, Option.map_some, Option.bind_some, push, allowKey, List.push_toArray]
  rfl

/-- A literal is taken as it is read. -/
theorem take_literal {more text : List Char} {after : Cursor}
    (hread : block? (margins.head?.getD 0) ⟨'|' :: more, p⟩ = some (text, after)) :
    (inBlocks false ⟨'|' :: more, p⟩ margins tokens).take '|' more =
      some (inBlocks true after margins (tokens ++ [.scalar .literal text])) := by
  have hblock : (inBlocks false ⟨'|' :: more, p⟩ margins tokens).take '|' more =
      (inBlocks false ⟨'|' :: more, p⟩ margins tokens).takeBlockScalar .literal := by
    have hmark : (inBlocks false ⟨'|' :: more, p⟩ margins tokens).cursor.atDocumentMark = false :=
      atDocumentMark_eq_false_of_head (by decide) more p
    rw [take, hmark]
    simp [inFlow, inBlocks]
  rw [hblock, takeBlockScalar]
  change (block? (margins.head?.getD 0) ⟨'|' :: more, p⟩).bind _ = _
  rw [hread]
  simp only [inBlocks, Option.bind_some, push, allowKey, List.push_toArray]
  rfl

/-- A text that can be written plainly starts a plain scalar. -/
theorem startsPlain_of_fits {c : Char} {more : List Char} (hwords : IsPlainText (c :: more))
    (hclean : HasNoIndicator (c :: more)) (tail : List Char) : StartsPlain c (more ++ tail) := by
  refine ⟨hclean.start c rfl, fun hmem => ?_, hwords.starts c rfl⟩
  have hnext := hclean.notAlone c rfl hmem
  cases more with
  | nil => exact Bool.noConfusion hnext
  | cons d more =>
    have hd : isWordEnd d = false := hnext
    simp only [isWordEnd, Bool.or_eq_false_iff] at hd
    exact hd.1.1

/-- The gap behind a line, with the indentation of the next one. -/
theorem lineEnd_spec (count : Nat) :
    (∀ d ∈ '\n' :: spaces count, d = ' ' ∨ isBreak d = true) ∧
      ('\n' :: spaces count).any isBreak = true := by
  refine ⟨List.forall_mem_cons.2 ⟨.inr (by decide), fun d hd => ?_⟩, ?_⟩
  · exact .inl (eq_space_of_mem_spaces hd)
  · rw [List.any_cons]
    rfl

theorem column_behind_lineEnd (count : Nat) (p : Position) :
    (p.behind ('\n' :: spaces count)).column = count :=
  Position.column_behind_line [] (by decide) (List.forall_mem_nil _) count p

variable (tokens) in
/-- A value in quotes is read with the end of its line. -/
theorem reaches_quoted {quote : Char} {style : ScalarStyle} {written cs : List Char} {count : Nat}
    (hmargins : ∀ m ∈ margins.head?, m ≤ p.column)
    (hstyle : quote = '\x27' ∧ style = .singleQuoted ∨ quote = '"' ∧ style = .doubleQuoted)
    (hread : quoted? quote ⟨quote :: (written ++ '\n' :: (spaces count ++ rest)), p.past ' '⟩ =
      some (cs, ⟨'\n' :: (spaces count ++ rest), (p.past ' ').behind (quote :: written)⟩))
    (hrest : StartsToken rest) :
    Reaches (inBlocks false ⟨' ' :: quote :: (written ++ '\n' :: (spaces count ++ rest)), p⟩ margins
        tokens)
      (inBlocks true ⟨spaces count ++ rest, p.behind (' ' :: quote :: (written ++ ['\n']))⟩ margins
        (tokens ++ [.scalar style cs])) := by
  have hquote : isGap quote = false ∧ quote ≠ '#' := by
    rcases hstyle with ⟨rfl, -⟩ | ⟨rfl, -⟩ <;> decide
  refine reaches_of_take hmargins (startsToken_cons.2 hquote) hrest (lineEnd_spec count).1
    (take_quoted hstyle hread) (lineEnd_spec count).2 ?_ ?_
  · simp only [Position.behind_append, Position.behind_cons, Position.behind_nil]
  · simp only [List.length_append, List.length_cons]
    omega

variable (tokens) in
/-- A plain value is read with the gap behind it, which leads into the margin. -/
theorem reaches_plain {cs : List Char} (hwords : IsPlainText cs) (hclean : HasNoIndicator cs)
    {margin count : Nat} (hcount : count < margin) {outer : List Nat} (hp : margin ≤ p.column)
    (hrest : StartsToken rest) :
    Reaches (inBlocks false ⟨' ' :: (cs ++ '\n' :: (spaces count ++ rest)), p⟩ (margin :: outer)
        tokens)
      (inBlocks true ⟨spaces count ++ rest, p.behind (' ' :: (cs ++ ['\n']))⟩ (margin :: outer)
        (tokens ++ [.scalar .plain cs])) := by
  obtain ⟨c, more, rfl⟩ := List.exists_cons_of_ne_nil hwords.ne_nil
  have hmargins : ∀ m ∈ (margin :: outer).head?, m ≤ p.column := fun m hm =>
    Option.some.inj hm ▸ hp
  have hcolumn : (p.past ' ').column = p.column + 1 := Position.column_past (by decide) p
  have hbehind : ((p.past ' ').behind (c :: more ++ '\n' :: spaces count)).column = count := by
    rw [Position.behind_append]
    exact column_behind_lineEnd count _
  have hgap : ∀ d ∈ '\n' :: spaces count, isGap d = true ∧ d ≠ '\t' := by
    refine List.forall_mem_cons.2 ⟨by decide, fun d hd => ?_⟩
    rw [eq_space_of_mem_spaces hd]
    decide
  have hread := plain?_value hwords (fun d hd => (hgap d hd).1) (by simp)
    (fun htab => (hgap '\t' htab).2 rfl) (fun d hd => (hrest d hd).1) margin
    (p := p.past ' ') (by omega) (by omega) (by omega)
  have hstarts := startsPlain_of_fits hwords hclean ('\n' :: (spaces count ++ rest))
  have htake : (inBlocks false ⟨c :: (more ++ '\n' :: (spaces count ++ rest)), p.past ' '⟩
      (margin :: outer) tokens).take c (more ++ '\n' :: (spaces count ++ rest)) =
    some (inBlocks true ⟨rest, (p.past ' ').behind (c :: more ++ '\n' :: spaces count)⟩
      (margin :: outer) (tokens ++ [.scalar .plain (c :: more)])) := by
    have hnote : (inBlocks false ⟨c :: (more ++ '\n' :: (spaces count ++ rest)), p.past ' '⟩
        (margin :: outer) tokens).noteKey = some (inBlocks false
          ⟨c :: more ++ ('\n' :: spaces count ++ rest), p.past ' '⟩ (margin :: outer) tokens) :=
      rfl
    rw [take_plain hstarts rfl (Cursor.atDocumentMark_eq_false (by
      change (p.past ' ').column ≠ 0
      omega)), takePlain_eq hnote hread]
    simp only [inBlocks, push, allowKey, List.push_toArray, (lineEnd_spec count).2]
  have hstartsToken : StartsToken (c :: (more ++ '\n' :: (spaces count ++ rest))) :=
    startsToken_cons.2 ⟨hstarts.notGap, fun hhash => hwords.noHash (congrArg some hhash)⟩
  simp only [List.cons_append]
  refine reaches_of_take hmargins hstartsToken hrest (List.forall_mem_nil _) htake rfl ?_ ?_
  · simp only [Position.behind_append, Position.behind_cons, Position.behind_nil]
  · simp only [List.length_append, List.length_cons]
    omega

variable (tokens) in
/-- A literal is read with the indentation of the next line. -/
theorem reaches_literal {cs : List Char} (hne : cs ≠ []) (htab : '\t' ∉ cs) {margin count : Nat}
    (hmargin : margin ≠ 0) (hcount : count < margin) {outer : List Nat} (hp : margin ≤ p.column)
    (hrest : StartsToken rest) :
    Reaches (inBlocks false ⟨' ' :: (literal (margin + 1) cs ++ (spaces count ++ rest)), p⟩
        (margin :: outer) tokens)
      (inBlocks true ⟨spaces count ++ rest, p.behind (' ' :: literal (margin + 1) cs)⟩
        (margin :: outer) (tokens ++ [.scalar .literal cs])) := by
  have hmargins : ∀ m ∈ (margin :: outer).head?, m ≤ p.column := fun m hm =>
    Option.some.inj hm ▸ hp
  have hfollows : Follows (margin + 1) count rest :=
    ⟨by omega, fun d hd => isBreak_eq_false_of_isGap_eq_false (hrest d hd).1,
      fun _ d hd => isBlank_eq_false_of_isGap_eq_false (hrest d hd).1⟩
  have hread := block?_literal hmargin hne htab hfollows (.inr (by omega)) (p.past ' ')
  obtain ⟨more, hmore⟩ : ∃ more, literal (margin + 1) cs = '|' :: more := ⟨_, rfl⟩
  rw [hmore] at hread ⊢
  refine reaches_of_take hmargins (startsToken_cons.2 (by decide)) hrest (List.forall_mem_nil _)
    (take_literal hread) rfl ?_ ?_
  · simp only [Position.behind_append, Position.behind_cons, Position.behind_nil]
  · simp

variable (tokens) in
/-- A value in a style that fits it is read with the end of its line. -/
theorem reaches_value {style : ScalarStyle} {text : String} (hfits : Fits style text.toList)
    {margin count : Nat} (hmargin : margin ≠ 0) (hcount : count < margin) (outer : List Nat)
    (hp : margin ≤ p.column) (hrest : StartsToken rest) :
    Reaches (inBlocks false ⟨' ' :: (renderScalar (margin + 1) style text ++
        (spaces count ++ rest)), p⟩ (margin :: outer) tokens)
      (inBlocks true ⟨spaces count ++ rest,
        p.behind (' ' :: renderScalar (margin + 1) style text)⟩ (margin :: outer)
          (tokens ++ [.scalar style text.toList])) := by
  have hmargins : ∀ m ∈ (margin :: outer).head?, m ≤ p.column := fun m hm =>
    Option.some.inj hm ▸ hp
  unfold renderScalar
  generalize text.toList = cs at hfits ⊢
  cases hfits with
  | plain hwords _ hclean =>
    simpa only [List.append_assoc, List.cons_append, List.nil_append] using
      reaches_plain tokens hwords hclean hcount hp hrest
  | singleQuoted hquotable =>
    have hline : ('\n' :: (spaces count ++ rest)).head? ≠ some '\x27' := by simp
    have hread := quoted?_single (Nat.succ_ne_zero margin) hquotable hline (p.past ' ')
    simpa only [List.append_assoc, List.cons_append, List.nil_append] using
      reaches_quoted tokens hmargins (.inl ⟨rfl, rfl⟩) hread hrest
  | doubleQuoted =>
    have hread := quoted?_double cs ('\n' :: (spaces count ++ rest)) (p.past ' ')
    rw [List.append_cons] at hread
    have hreach := reaches_quoted tokens hmargins (.inr ⟨rfl, rfl⟩) hread hrest
    simpa only [List.append_assoc, List.cons_append, List.nil_append] using hreach
  | literal hne hprintable =>
    exact reaches_literal tokens hne (fun hmem => absurd (hprintable '\t' hmem) (by decide)) hmargin
      hcount hp hrest

end Steps

end Layout

end ProcedureCatalog.Yaml
