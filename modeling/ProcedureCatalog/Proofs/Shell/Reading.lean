/-
# Text inside double quotes

The reader of command lines, on a text that stands inside double quotes as it is. Such a text is
read as itself exactly when none of its characters is taken for a sign of the shell.

* `Reader.startsNone` : no expansion starts.
* `MeansItself` : the texts that mean themselves.
* `size_feed_le` : one character gives at most one part of a word.
* `reads_of_meansItself` : a text that means itself is read as itself.
* `meansItself_of_keepsAll` : no other text is, since each sign of the shell is lost.
* `quoted_iff` : both together, with the closing quote.
-/
import Mathlib.Data.List.Chain
import ProcedureCatalog.Shell.Word

namespace ProcedureCatalog.Shell

/-! ## Literal words -/

/-- The word whose characters all stand for themselves. -/
def literalToken (text : List Char) : Token := .word (text.map .char)

theorem literalToken_injective : Function.Injective literalToken := by
  intro text text' h
  have hchar : Function.Injective Part.char := fun _ _ h => Part.char.inj h
  exact List.map_injective_iff.2 hchar (Token.word.inj h)

/-- The reader is behind a sign that starts an expansion. -/
def Mode.isExpansion : Mode → Bool
  | .dollar _ => true
  | .name _ _ => true
  | .braces _ _ => true
  | .parentheses _ _ _ => true
  | .backquotes _ _ => true
  | _ => false

/-- No character of the text starts an expansion: the reader never comes behind a dollar sign or a
backquote that is not quoted. -/
def Reader.startsNone : Reader → List Char → Bool
  | _, [] => true
  | r, c :: cs => !(r.feed c).mode.isExpansion && (r.feed c).startsNone cs

/-- The line is read as these words, all their characters stand for themselves, and no expansion
starts. -/
structure IsCommand (line : List Char) (words : List (List Char)) : Prop where
  tokens : tokens? line = some (words.map literalToken)
  quiet : Reader.start.startsNone line = true

/-- A line has one reading. -/
theorem IsCommand.unique {line : List Char} {words words' : List (List Char)}
    (h : IsCommand line words) (h' : IsCommand line words') : words = words' :=
  List.map_injective_iff.2 literalToken_injective
    (Option.some.inj (h.tokens.symm.trans h'.tokens))

/-- Inside double quotes the text means itself: it has no double quote, dollar sign or backquote,
and each of its backslashes stands before a character that it does not quote. -/
structure MeansItself (text : List Char) : Prop where
  plain : ∀ c ∈ text, c ≠ '"' ∧ c ≠ '$' ∧ c.toNat ≠ 0x60
  lone : text.IsChain fun c d => c = '\\' → d ≠ '\\' ∧ d ≠ '\n'
  closed : text.getLast? ≠ some '\\'

/-- The three conditions together. -/
theorem meansItself_iff (text : List Char) :
    MeansItself text ↔ (∀ c ∈ text, c ≠ '"' ∧ c ≠ '$' ∧ c.toNat ≠ 0x60) ∧
      (text.IsChain fun c d => c = '\\' → d ≠ '\\' ∧ d ≠ '\n') ∧ text.getLast? ≠ some '\\' :=
  ⟨fun h => ⟨h.plain, h.lone, h.closed⟩, fun h => ⟨h.1, h.2.1, h.2.2⟩⟩

-- the characters are those of the text, not all there are
instance (text : List Char) : Decidable (MeansItself text) :=
  haveI : Decidable (∀ c ∈ text, c ≠ '"' ∧ c ≠ '$' ∧ c.toNat ≠ 0x60) := List.decidableBAll _ _
  decidable_of_iff _ (meansItself_iff text).symm

/-! ## Texts that mean themselves -/

namespace MeansItself

/-- The empty text means itself. -/
theorem nil : MeansItself [] := ⟨by simp, .nil, by simp⟩

/-- A backslash at the end would quote the closing quote. -/
theorem not_backslash : ¬ MeansItself ['\\'] := fun h => h.closed rfl

/-- A character that is no backslash means itself by itself. -/
theorem cons_iff {c : Char} {text : List Char} (hc : c ≠ '\\') :
    MeansItself (c :: text) ↔ (c ≠ '"' ∧ c ≠ '$' ∧ c.toNat ≠ 0x60) ∧ MeansItself text := by
  have hlast : (c :: text).getLast? ≠ some '\\' ↔ text.getLast? ≠ some '\\' := by
    cases text with
    | nil => simp [hc]
    | cons d text => rw [List.getLast?_cons_cons]
  constructor
  · intro h
    have hchain := List.isChain_cons.1 h.lone
    exact ⟨h.plain c List.mem_cons_self, fun d hd => h.plain d (List.mem_cons_of_mem _ hd),
      hchain.2, hlast.1 h.closed⟩
  · rintro ⟨hplain, h⟩
    refine ⟨?_, ?_, hlast.2 h.closed⟩
    · exact List.forall_mem_cons.2 ⟨hplain, h.plain⟩
    · exact List.isChain_cons.2 ⟨fun d _ hback => absurd hback hc, h.lone⟩

/-- A backslash means itself when it does not quote what follows. -/
theorem backslash_iff {c : Char} {text : List Char} :
    MeansItself ('\\' :: c :: text) ↔ (c ≠ '\\' ∧ c ≠ '\n') ∧ MeansItself (c :: text) := by
  constructor
  · intro h
    have hchain := List.isChain_cons_cons.1 h.lone
    refine ⟨hchain.1 rfl, fun d hd => h.plain d (List.mem_cons_of_mem _ hd), hchain.2, ?_⟩
    rw [← List.getLast?_cons_cons]
    exact h.closed
  · rintro ⟨hc, h⟩
    refine ⟨?_, ?_, ?_⟩
    · exact List.forall_mem_cons.2 ⟨by decide, h.plain⟩
    · exact List.isChain_cons_cons.2 ⟨fun _ => hc, h.lone⟩
    · rw [List.getLast?_cons_cons]
      exact h.closed

end MeansItself

namespace Reader

/-! ## Runs of the reader -/

/-- Reading a text takes the reader to another one, and no expansion starts on the way. -/
structure Reads (r : Reader) (text : List Char) (r' : Reader) : Prop where
  reader : text.foldl feed r = r'
  quiet : r.startsNone text = true

theorem startsNone_append (r : Reader) (text text' : List Char) :
    r.startsNone (text ++ text') = (r.startsNone text && (text.foldl feed r).startsNone text') := by
  induction text generalizing r with
  | nil => rfl
  | cons c text ih =>
    rw [List.cons_append, startsNone, startsNone, ih, List.foldl_cons, Bool.and_assoc]

theorem Reads.nil (r : Reader) : Reads r [] r := ⟨rfl, rfl⟩

theorem Reads.cons {r r' r'' : Reader} {c : Char} {text : List Char} (hfeed : r.feed c = r')
    (hmode : r'.mode.isExpansion = false) (h : Reads r' text r'') : Reads r (c :: text) r'' := by
  subst hfeed
  exact ⟨h.reader, by rw [startsNone, hmode, h.quiet]; rfl⟩

theorem Reads.append {r r' r'' : Reader} {text text' : List Char} (h : Reads r text r')
    (h' : Reads r' text' r'') : Reads r (text ++ text') r'' := by
  constructor
  · rw [List.foldl_append, h.reader, h'.reader]
  · rw [startsNone_append, h.quiet, h.reader, h'.quiet]
    rfl

/-- What follows a text that was read starts no expansion either. -/
theorem Reads.startsNone_append {r r' : Reader} {text text' : List Char} (h : Reads r text r')
    (hquiet : r.startsNone (text ++ text') = true) : r'.startsNone text' = true := by
  rw [Reader.startsNone_append, h.reader, h.quiet] at hquiet
  exact hquiet

/-! ## One character inside double quotes -/

section

variable {tokens : List Token} {parts : List Part} {c : Char}

theorem feed_double (hplain : c ≠ '"' ∧ c ≠ '$' ∧ c.toNat ≠ 0x60) (hback : c ≠ '\\') :
    feed ⟨tokens, some parts, .double⟩ c = ⟨tokens, some (.char c :: parts), .double⟩ := by
  simp [feed, feedDouble, enter, push, hplain, hback]

theorem feed_double_backslash :
    feed ⟨tokens, some parts, .double⟩ '\\' = ⟨tokens, some parts, .doubleEscape⟩ := rfl

theorem feed_double_quote :
    feed ⟨tokens, some parts, .double⟩ '"' = ⟨tokens, some parts, .plain⟩ := rfl

theorem isExpansion_feed_double (h : c = '$' ∨ c.toNat = 0x60) :
    (feed ⟨tokens, some parts, .double⟩ c).mode.isExpansion = true := by
  rcases h with rfl | h
  · rfl
  · have hquote : c ≠ '"' := by rintro rfl; simp at h
    have hback : c ≠ '\\' := by rintro rfl; simp at h
    have hdollar : c ≠ '$' := by rintro rfl; simp at h
    simp [feed, feedDouble, enter, Mode.isExpansion, hquote, hback, hdollar, h]

/-- A backslash quotes the signs of the shell. -/
theorem feed_doubleEscape_sign (h : c = '$' ∨ c = '"' ∨ c = '\\' ∨ c.toNat = 0x60) :
    feed ⟨tokens, some parts, .doubleEscape⟩ c = ⟨tokens, some (.char c :: parts), .double⟩ := by
  have hline : c ≠ '\n' := by rintro rfl; simp at h
  simp only [feed, feedDoubleEscape, enter, push, beq_iff_eq, Bool.or_eq_true, hline, if_false]
  rw [if_pos (by tauto)]
  rfl

theorem feed_doubleEscape_newline :
    feed ⟨tokens, some parts, .doubleEscape⟩ '\n' = ⟨tokens, some parts, .double⟩ := rfl

/-- A backslash before another character stands for itself. -/
theorem feed_doubleEscape (hplain : c ≠ '"' ∧ c ≠ '$' ∧ c.toNat ≠ 0x60) (hback : c ≠ '\\')
    (hline : c ≠ '\n') :
    feed ⟨tokens, some parts, .doubleEscape⟩ c =
      ⟨tokens, some (.char c :: .char '\\' :: parts), .double⟩ := by
  simp [feed, feedDoubleEscape, enter, push, hplain, hback, hline]

end

/-! ## A text that means itself -/

/-- Inside double quotes a text that means itself is read as itself; so is the rest of one whose
first character was a backslash. -/
theorem reads_of_meansItself (text : List Char) :
    (∀ tokens parts, MeansItself text → Reads ⟨tokens, some parts, .double⟩ text
      ⟨tokens, some ((text.map .char).reverse ++ parts), .double⟩) ∧
    (∀ tokens parts, MeansItself ('\\' :: text) → Reads ⟨tokens, some parts, .doubleEscape⟩ text
      ⟨tokens, some ((text.map .char).reverse ++ .char '\\' :: parts), .double⟩) := by
  induction text with
  | nil => exact ⟨fun _ _ _ => .nil _, fun _ _ h => absurd h MeansItself.not_backslash⟩
  | cons c text ih =>
    obtain ⟨ihdouble, ihescape⟩ := ih
    constructor
    · intro tokens parts h
      by_cases hback : c = '\\'
      · subst hback
        have := ihescape tokens parts h
        refine Reads.cons feed_double_backslash rfl ?_
        simpa using this
      · obtain ⟨hplain, h⟩ := (MeansItself.cons_iff hback).1 h
        refine Reads.cons (feed_double hplain hback) rfl ?_
        simpa using ihdouble tokens (.char c :: parts) h
    · intro tokens parts h
      obtain ⟨⟨hback, hline⟩, h⟩ := MeansItself.backslash_iff.1 h
      obtain ⟨hplain, h⟩ := (MeansItself.cons_iff hback).1 h
      refine Reads.cons (feed_doubleEscape hplain hback hline) rfl ?_
      simpa using ihdouble tokens (.char c :: .char '\\' :: parts) h

end Reader

/-! ## What a reader holds -/

/-- The number of parts in a token. -/
def Token.size : Token → Nat
  | .word parts => parts.length
  | .operator _ => 0

/-- The number of parts in tokens. -/
def partCount : List Token → Nat
  | [] => 0
  | token :: tokens => token.size + partCount tokens

theorem partCount_append (tokens tokens' : List Token) :
    partCount (tokens ++ tokens') = partCount tokens + partCount tokens' := by
  induction tokens with
  | nil => exact (Nat.zero_add _).symm
  | cons token tokens ih => rw [List.cons_append, partCount, ih, partCount, Nat.add_assoc]

theorem partCount_reverse (tokens : List Token) : partCount tokens.reverse = partCount tokens := by
  induction tokens with
  | nil => rfl
  | cons token tokens ih =>
    rw [List.reverse_cons, partCount_append, ih, partCount, partCount, partCount, Nat.add_zero,
      Nat.add_comm]

/-- A backslash that is read and is in no word yet. -/
def Mode.pending : Mode → Nat
  | .escape => 1
  | .doubleEscape => 1
  | _ => 0

namespace Reader

/-- The number of parts in the words read so far. -/
def held (r : Reader) : Nat := partCount r.tokens + (r.word.getD []).length

/-- The number of parts read so far, a backslash that may become one included. -/
def size (r : Reader) : Nat := r.held + r.mode.pending

theorem size_eq (r : Reader) : r.size = r.held + r.mode.pending := rfl

@[simp] theorem held_enter (r : Reader) (mode : Mode) : (r.enter mode).held = r.held := rfl

@[simp] theorem size_enter (r : Reader) (mode : Mode) :
    (r.enter mode).size = r.held + mode.pending := rfl

@[simp] theorem held_push (r : Reader) (part : Part) : (r.push part).held = r.held + 1 := by
  simp [held, push, Nat.add_assoc]

@[simp] theorem size_push (r : Reader) (part : Part) : (r.push part).size = r.size + 1 := by
  rw [size, held_push]
  exact Nat.add_right_comm _ _ _

@[simp] theorem held_beginWord (r : Reader) : r.beginWord.held = r.held := by
  simp [held, beginWord]

@[simp] theorem mode_endWord (r : Reader) : r.endWord.mode = r.mode := by
  unfold endWord
  split <;> rfl

@[simp] theorem held_endWord (r : Reader) : r.endWord.held = r.held := by
  unfold endWord
  split
  · next parts h => simp [held, h, partCount, Token.size, Nat.add_comm]
  · rfl

@[simp] theorem size_endWord (r : Reader) : r.endWord.size = r.size := by
  rw [size, held_endWord, mode_endWord]
  rfl

@[simp] theorem held_endOperator (r : Reader) (reversed : List Char) :
    (r.endOperator reversed).held = r.held := by
  simp [held, endOperator, partCount, Token.size]

/-- The digits that a redirection takes are parts of no word. -/
theorem size_startOperator_le (r : Reader) (c : Char) : (r.startOperator c).size ≤ r.held := by
  unfold startOperator
  split
  · split
    · simp [size, held, Mode.pending]
    · simp [Mode.pending]
  · simp [Mode.pending]

/-- Outside quotes a character gives at most one part. -/
theorem size_feedPlain_le (r : Reader) (c : Char) : (r.feedPlain c).size ≤ r.held + 1 := by
  have hoperator := size_startOperator_le (r.enter .plain) c
  rw [held_enter] at hoperator
  unfold feedPlain
  dsimp only
  split_ifs <;> simp [Mode.pending]
  omega

/-- Inside double quotes a character gives at most one part. -/
theorem size_feedDouble_le (r : Reader) (c : Char) : (r.feedDouble c).size ≤ r.held + 1 := by
  unfold feedDouble
  dsimp only
  split_ifs <;> simp [Mode.pending]

/-- The character behind a backslash inside double quotes gives its part and perhaps that of the
backslash. -/
theorem size_feedDoubleEscape_le (r : Reader) (c : Char) :
    (r.feedDoubleEscape c).size ≤ r.held + 2 := by
  unfold feedDoubleEscape
  dsimp only
  split_ifs <;> simp [Mode.pending]

/-- Where nothing is expanded, one character gives at most one part. -/
theorem size_feed_le {r : Reader} (hmode : r.mode.isExpansion = false) (c : Char) :
    (r.feed c).size ≤ r.size + 1 := by
  rw [r.size_eq]
  unfold feed
  cases hm : r.mode <;> rw [hm] at hmode
  case plain => exact size_feedPlain_le r c
  case escape =>
    dsimp only
    split
    · exact Nat.le_add_right _ 2
    · simp [Mode.pending]
  case single =>
    dsimp only
    split
    · exact Nat.le_add_right _ 1
    · simp [r.size_eq, hm]
  case double => exact size_feedDouble_le r c
  case doubleEscape => exact size_feedDoubleEscape_le r c
  case operator reversed =>
    rw [← held_endOperator r reversed]
    dsimp only
    split
    · exact Nat.le_add_right _ 1
    · exact size_feedPlain_le (r.endOperator reversed) c
  case comment =>
    dsimp only
    split
    · exact size_feedPlain_le r c
    · rw [r.size_eq, hm]
      exact Nat.le_succ _
  all_goals exact Bool.noConfusion hmode

/-- A double quote gives no part, unless single quotes are open. -/
theorem size_feed_quote_le {r : Reader} (hmode : r.mode.isExpansion = false)
    (hsingle : r.mode ≠ .single) : (r.feed '"').size ≤ r.size := by
  have hplain : ∀ r : Reader, (r.feedPlain '"').size = r.held := fun r => by
    simp [feedPlain, isOperatorChar, Mode.pending]
  rw [r.size_eq]
  unfold feed
  cases hm : r.mode <;> rw [hm] at hmode hsingle
  case plain => exact (hplain r).le
  case escape => simp [Mode.pending]
  case single => exact absurd rfl hsingle
  case double => simp [feedDouble, Mode.pending]
  case doubleEscape => simp [feedDoubleEscape, Mode.pending]
  case operator reversed =>
    rw [← held_endOperator r reversed]
    dsimp only
    split
    · exact le_rfl
    · exact (hplain (r.endOperator reversed)).le
  case comment =>
    simp [r.size_eq, hm]
  all_goals exact Bool.noConfusion hmode

/-- The tokens at the end have no more parts than the reader. -/
theorem partCount_le_of_finish {r : Reader} {tokens : List Token}
    (hmode : r.mode.isExpansion = false) (h : r.finish = some tokens) :
    partCount tokens ≤ r.size := by
  have hcount : ∀ r : Reader, partCount r.tokens.reverse ≤ r.held := by
    intro r
    rw [partCount_reverse]
    exact Nat.le_add_right _ _
  rw [r.size_eq]
  unfold finish at h
  cases hm : r.mode <;> rw [hm] at hmode <;>
    simp only [hm, Option.some.injEq, reduceCtorEq] at h
  case plain =>
    subst h
    exact (hcount r.endWord).trans (held_endWord r).le
  case comment =>
    subst h
    exact (hcount r.endWord).trans (held_endWord r).le
  case escape =>
    subst h
    refine (hcount (r.push (.char '\\')).endWord).trans ?_
    rw [held_endWord, held_push]
    rfl
  case operator reversed =>
    subst h
    exact (hcount (r.endOperator reversed)).trans (held_endOperator r reversed).le
  all_goals exact Bool.noConfusion hmode

/-! ## A text that is kept -/

/-- Behind the text and a closing quote the line ends, no expansion has started, and the words
have a part for each character of the text. -/
structure KeepsAll (r : Reader) (text : List Char) : Prop where
  quiet : r.startsNone (text ++ ['"']) = true
  full : ∃ tokens, ((text ++ ['"']).foldl feed r).finish = some tokens ∧
    r.size + text.length ≤ partCount tokens

/-- Text behind the reader gives at most one part for each of its characters, and the closing
quote gives none. -/
theorem partCount_le (text : List Char) {r : Reader} {tokens : List Token}
    (hmode : r.mode.isExpansion = false) (hquiet : r.startsNone (text ++ ['"']) = true)
    (h : ((text ++ ['"']).foldl feed r).finish = some tokens) :
    partCount tokens ≤ r.size + text.length := by
  induction text generalizing r with
  | nil =>
    have hfeed : (r.feed '"').mode.isExpansion = false := by
      simpa [startsNone] using hquiet
    -- single quotes cannot be open, as they would stay open
    have hsingle : r.mode ≠ .single := by
      intro hm
      have hstays : r.feed '"' = r.push (.char '"') := by
        unfold feed
        rw [hm]
        rfl
      have hfinish : (r.feed '"').finish = none := by
        rw [hstays, finish, push, hm]
      exact absurd (hfinish.symm.trans h) (Option.some_ne_none _).symm
    exact (partCount_le_of_finish hfeed h).trans (size_feed_quote_le hmode hsingle)
  | cons c text ih =>
    rw [List.cons_append, startsNone, Bool.and_eq_true, Bool.not_eq_true'] at hquiet
    have hrest := ih hquiet.1 hquiet.2 h
    have hstep := size_feed_le hmode c
    rw [List.length_cons]
    omega

/-- In a text that is kept, the first character starts no expansion and gives a part. -/
theorem KeepsAll.cons {r : Reader} {c : Char} {text : List Char} (h : KeepsAll r (c :: text)) :
    (r.feed c).mode.isExpansion = false ∧ r.size < (r.feed c).size := by
  obtain ⟨tokens, hfinish, hfull⟩ := h.full
  have hquiet := h.quiet
  rw [List.cons_append, startsNone, Bool.and_eq_true, Bool.not_eq_true'] at hquiet
  have hle := partCount_le text hquiet.1 hquiet.2 hfinish
  rw [List.length_cons] at hfull
  exact ⟨hquiet.1, by omega⟩

/-- The rest of a text that is kept is kept. -/
theorem KeepsAll.tail {r : Reader} {c : Char} {text : List Char} (h : KeepsAll r (c :: text))
    (hmode : r.mode.isExpansion = false) : KeepsAll (r.feed c) text := by
  obtain ⟨tokens, hfinish, hfull⟩ := h.full
  have hquiet := h.quiet
  rw [List.cons_append, startsNone, Bool.and_eq_true] at hquiet
  have hstep := size_feed_le hmode c
  rw [List.length_cons] at hfull
  exact ⟨hquiet.2, tokens, hfinish, by omega⟩

/-- Inside double quotes a text is kept only when it means itself; so is the rest of one whose
first character was a backslash. -/
theorem meansItself_of_keepsAll (text : List Char) :
    (∀ tokens parts, KeepsAll ⟨tokens, some parts, .double⟩ text → MeansItself text) ∧
    (∀ tokens parts, KeepsAll ⟨tokens, some parts, .doubleEscape⟩ text →
      MeansItself ('\\' :: text)) := by
  induction text with
  | nil =>
    refine ⟨fun _ _ _ => .nil, ?_⟩
    -- the backslash quotes the closing quote, and the quotes stay open
    rintro tokens parts ⟨-, _, hfinish, -⟩
    exact absurd hfinish (Option.some_ne_none _).symm
  | cons c text ih =>
    obtain ⟨ihdouble, ihescape⟩ := ih
    constructor
    · intro tokens parts h
      obtain ⟨hmode, hsize⟩ := h.cons
      have htail := h.tail rfl
      by_cases hback : c = '\\'
      · subst hback
        exact ihescape tokens parts htail
      · have hplain : c ≠ '"' ∧ c ≠ '$' ∧ c.toNat ≠ 0x60 := by
          refine ⟨?_, ?_, ?_⟩
          · rintro rfl
            exact absurd hsize (lt_irrefl _)
          · intro hc
            rw [isExpansion_feed_double (.inl hc)] at hmode
            exact Bool.noConfusion hmode
          · intro hc
            rw [isExpansion_feed_double (.inr hc)] at hmode
            exact Bool.noConfusion hmode
        rw [feed_double hplain hback] at htail
        exact (MeansItself.cons_iff hback).2 ⟨hplain, ihdouble _ _ htail⟩
    · intro tokens parts h
      obtain ⟨-, hsize⟩ := h.cons
      have htail := h.tail rfl
      -- a quoted sign takes the place of the backslash before it
      have hsign : ¬ (c = '$' ∨ c = '"' ∨ c = '\\' ∨ c.toNat = 0x60) := by
        intro hc
        rw [feed_doubleEscape_sign hc] at hsize
        exact absurd hsize (lt_irrefl _)
      have hline : c ≠ '\n' := by
        rintro rfl
        rw [feed_doubleEscape_newline] at hsize
        exact absurd hsize (by simp [size, held, Mode.pending])
      have hback : c ≠ '\\' := fun hc => hsign (.inr (.inr (.inl hc)))
      have hplain : c ≠ '"' ∧ c ≠ '$' ∧ c.toNat ≠ 0x60 :=
        ⟨fun hc => hsign (.inr (.inl hc)), fun hc => hsign (.inl hc),
          fun hc => hsign (.inr (.inr (.inr hc)))⟩
      rw [feed_doubleEscape hplain hback hline] at htail
      exact MeansItself.backslash_iff.2
        ⟨⟨hback, hline⟩, (MeansItself.cons_iff hback).2 ⟨hplain, ihdouble _ _ htail⟩⟩

/-- **What double quotes keep.** A text between double quotes is one word, the text itself, and
starts no expansion, exactly when it means itself. -/
theorem quoted_iff (tokens : List Token) (text : List Char) :
    (((text ++ ['"']).foldl feed ⟨tokens, some [], .double⟩).finish =
          some (tokens.reverse ++ [literalToken text]) ∧
        startsNone ⟨tokens, some [], .double⟩ (text ++ ['"']) = true) ↔ MeansItself text := by
  constructor
  · rintro ⟨hfinish, hquiet⟩
    refine (meansItself_of_keepsAll text).1 tokens [] ⟨hquiet, _, hfinish, ?_⟩
    simp [size, held, partCount, partCount_append, partCount_reverse, literalToken, Token.size,
      Mode.pending]
  · intro h
    have htext := (reads_of_meansItself text).1 tokens [] h
    have hclose : Reads ⟨tokens, some ((text.map .char).reverse ++ []), .double⟩ ['"']
        ⟨tokens, some ((text.map .char).reverse ++ []), .plain⟩ :=
      .cons feed_double_quote rfl (.nil _)
    have hall := htext.append hclose
    refine ⟨?_, hall.quiet⟩
    rw [hall.reader]
    simp [finish, endWord, literalToken]

end Reader

end ProcedureCatalog.Shell
