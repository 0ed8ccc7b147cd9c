/-
# Reading SQL

The reader of SQL statements, as far as values are concerned: a literal runs from a single quote to
the next one that is not doubled, and a doubled quote inside it stands for one. Words and signs
stand between the literals.

* `Token` : words, signs and literals.
* `Reader.feed` : the next character.
* `tokens?` : the tokens of a statement, unless a literal is open at its end.
* `tokens?_append` : separated texts are read one by one.
* `tokens?_literal` : a literal with doubled quotes is read as its value.
* `tokens?_word` : letters and digits are one word.
-/
import ProcedureCatalog.Host.Quoting

namespace ProcedureCatalog.Sql

/-! ## Tokens -/

/-- A word, a sign, or a literal with the value it stands for. -/
inductive Token where
  | word (text : List Char)
  | sign (c : Char)
  | literal (value : List Char)
  deriving DecidableEq, Repr

namespace Token

/-- The value of a literal. -/
def value? : Token → Option (List Char)
  | literal value => some value
  | _ => none

/-- The token without the value of a literal. -/
def shape : Token → Token
  | literal _ => literal []
  | token => token

/-- Without a value nothing is left out. -/
theorem shape_eq_self {token : Token} (h : token.value? = none) : token.shape = token := by
  cases token with
  | word text => rfl
  | sign c => rfl
  | literal value => exact absurd h (Option.some_ne_none value)

end Token

/-! ## The reader -/

/-- Where the reader is; texts are read backwards. -/
inductive Mode where
  | between
  | word (reversed : List Char)
  | literal (reversed : List Char)
  /-- Behind a quote inside a literal: the end of it, unless another quote follows. -/
  | quote (reversed : List Char)
  deriving DecidableEq, Repr

/-- The reader: the tokens so far, read backwards. -/
structure Reader where
  tokens : List Token
  mode : Mode
  deriving DecidableEq, Repr

/-- A single quote. -/
def isQuote (c : Char) : Bool := c.toNat == 0x27

/-- A character of a word. -/
def isWordChar (c : Char) : Bool := c.isAlphanum || c == '_'

/-- No quote stands in a word. -/
theorem isQuote_eq_false_of_isWordChar {c : Char} (h : isWordChar c = true) :
    isQuote c = false := by
  refine Bool.eq_false_iff.2 fun hquote => ?_
  obtain rfl : c = Char.ofNat 0x27 := by rw [← eq_of_beq hquote, Char.ofNat_toNat]
  exact absurd h (by decide)

namespace Reader

/-- The reader before the first character. -/
def start : Reader := ⟨[], .between⟩

/-- The reader with one more token. -/
def push (r : Reader) (token : Token) : Reader := ⟨token :: r.tokens, .between⟩

/-- A character outside words and literals. -/
def feedBetween (r : Reader) (c : Char) : Reader :=
  if isQuote c then ⟨r.tokens, .literal []⟩
  else if isWordChar c then ⟨r.tokens, .word [c]⟩
  else if c.isWhitespace then ⟨r.tokens, .between⟩
  else r.push (.sign c)

/-- The next character. -/
def feed (r : Reader) (c : Char) : Reader :=
  match r.mode with
  | .between => r.feedBetween c
  | .word reversed =>
    if isWordChar c then ⟨r.tokens, .word (c :: reversed)⟩
    else (r.push (.word reversed.reverse)).feedBetween c
  | .literal reversed =>
    if isQuote c then ⟨r.tokens, .quote reversed⟩ else ⟨r.tokens, .literal (c :: reversed)⟩
  | .quote reversed =>
    if isQuote c then ⟨r.tokens, .literal (c :: reversed)⟩
    else (r.push (.literal reversed.reverse)).feedBetween c

/-- The tokens, unless a literal is still open. -/
def finish (r : Reader) : Option (List Token) :=
  match r.mode with
  | .between => some r.tokens.reverse
  | .word reversed => some (r.push (.word reversed.reverse)).tokens.reverse
  | .literal _ => none
  | .quote reversed => some (r.push (.literal reversed.reverse)).tokens.reverse

end Reader

open Reader

/-- The tokens of a statement. -/
def tokens? (statement : List Char) : Option (List Token) := (statement.foldl feed start).finish

/-! ## One text behind another -/

namespace Reader

/-- The reader with tokens before its own. -/
def behind (r : Reader) (earlier : List Token) : Reader := ⟨r.tokens ++ earlier, r.mode⟩

variable (r : Reader) (earlier : List Token) (c : Char)

theorem feedBetween_behind :
    (r.behind earlier).feedBetween c = (r.feedBetween c).behind earlier := by
  unfold feedBetween
  split
  · rfl
  · split
    · rfl
    · split <;> rfl

theorem push_behind (token : Token) :
    (r.behind earlier).push token = (r.push token).behind earlier := rfl

/-- The reader does not look at the tokens it has. -/
theorem feed_behind : (r.behind earlier).feed c = (r.feed c).behind earlier := by
  have hmode : (r.behind earlier).mode = r.mode := rfl
  unfold feed
  rw [hmode]
  cases r.mode with
  | between => exact feedBetween_behind r earlier c
  | word reversed =>
    dsimp only
    split
    · rfl
    · rw [push_behind, feedBetween_behind]
  | literal reversed =>
    dsimp only
    split <;> rfl
  | quote reversed =>
    dsimp only
    split
    · rfl
    · rw [push_behind, feedBetween_behind]

theorem foldl_feed_behind (text : List Char) :
    text.foldl feed (r.behind earlier) = (text.foldl feed r).behind earlier := by
  induction text generalizing r with
  | nil => rfl
  | cons c text ih => rw [List.foldl_cons, List.foldl_cons, feed_behind, ih]

theorem finish_behind : (r.behind earlier).finish = r.finish.map (earlier.reverse ++ ·) := by
  have hmode : (r.behind earlier).mode = r.mode := rfl
  unfold finish
  rw [hmode]
  cases r.mode <;> simp [behind, push]

/-- Between tokens the reader is the first one but for its tokens. -/
theorem eq_behind_of_finish {r : Reader} {tokens : List Token} (h : r.finish = some tokens)
    (hmode : r.mode = .between) : r = start.behind tokens.reverse := by
  obtain ⟨earlier, mode⟩ := r
  obtain rfl : mode = .between := hmode
  obtain rfl : earlier.reverse = tokens := Option.some.inj h
  rw [List.reverse_reverse]
  rfl

/-- A space ends whatever can end. -/
theorem feed_space {tokens : List Token} (h : r.finish = some tokens) :
    r.feed ' ' = start.behind tokens.reverse := by
  unfold finish at h
  unfold feed
  cases hmode : r.mode <;> rw [hmode] at h <;>
    simp only [Option.some.injEq, reduceCtorEq] at h <;> subst h
  all_goals simp [feedBetween, behind, start, push, isQuote, isWordChar]

end Reader

/-- The first text ends between tokens, or the second one starts with a space. -/
def Separated (first second : List Char) : Prop :=
  (first.foldl feed start).mode = .between ∨ second.head? = some ' '

/-- Separated texts are read one by one. -/
theorem tokens?_append {first second : List Char} {tokens : List Token}
    (h : tokens? first = some tokens) (hseparated : Separated first second) :
    tokens? (first ++ second) = (tokens? second).map (tokens ++ ·) := by
  have hreader : second.foldl feed (first.foldl feed start) =
      (second.foldl feed start).behind tokens.reverse := by
    rcases hseparated with hmode | hspace
    · rw [eq_behind_of_finish h hmode, foldl_feed_behind]
    · obtain ⟨rest, rfl⟩ : ∃ rest, second = ' ' :: rest := List.head?_eq_some_iff.1 hspace
      rw [List.foldl_cons, feed_space _ h, foldl_feed_behind]
      rfl
  rw [tokens?, List.foldl_append, hreader, finish_behind, List.reverse_reverse]
  rfl

/-! ## Literals and words -/

section

variable {tokens : List Token} {reversed : List Char}

/-- A character inside a literal is read as itself. -/
theorem foldl_sqlChar (c : Char) :
    (Host.sqlChar c).foldl feed ⟨tokens, .literal reversed⟩ =
      ⟨tokens, .literal (c :: reversed)⟩ := by
  unfold Host.sqlChar
  split
  · next hc => simp [feed, isQuote, hc]
  · next hc => simp [feed, isQuote, hc]

/-- A text inside a literal is read as itself. -/
theorem foldl_flatMap_sqlChar (value : List Char) :
    (value.flatMap Host.sqlChar).foldl feed ⟨tokens, .literal reversed⟩ =
      ⟨tokens, .literal (value.reverse ++ reversed)⟩ := by
  induction value generalizing reversed with
  | nil => rfl
  | cons c value ih =>
    rw [List.flatMap_cons, List.foldl_append, foldl_sqlChar, ih, List.reverse_cons,
      List.append_assoc]
    rfl

/-- Letters and digits stay in the word. -/
theorem foldl_word {text : List Char} (h : ∀ c ∈ text, isWordChar c = true) :
    text.foldl feed ⟨tokens, .word reversed⟩ = ⟨tokens, .word (text.reverse ++ reversed)⟩ := by
  induction text generalizing reversed with
  | nil => rfl
  | cons c text ih =>
    obtain ⟨hc, hrest⟩ := List.forall_mem_cons.1 h
    have hfeed : feed ⟨tokens, .word reversed⟩ c = ⟨tokens, .word (c :: reversed)⟩ := if_pos hc
    rw [List.foldl_cons, hfeed, ih hrest, List.reverse_cons, List.append_assoc]
    rfl

end

/-- A literal with doubled quotes is read as its value. -/
theorem tokens?_literal (value : List Char) {quote : Char} (h : isQuote quote = true) :
    tokens? (quote :: (value.flatMap Host.sqlChar ++ [quote])) = some [.literal value] := by
  have hopen : feed start quote = ⟨[], .literal []⟩ := if_pos h
  have hclose : feed ⟨[], .literal value.reverse⟩ quote = ⟨[], .quote value.reverse⟩ := if_pos h
  rw [tokens?, List.foldl_cons, hopen, List.foldl_append, foldl_flatMap_sqlChar, List.append_nil,
    List.foldl_cons, hclose]
  simp [finish, push]

example : tokens? "NAME = 'it''s'".toList =
    some [.word "NAME".toList, .sign '=', .literal "it's".toList] := by
  decide

/-- Letters and digits are one word. -/
theorem tokens?_word {text : List Char} (hne : text ≠ []) (h : ∀ c ∈ text, isWordChar c = true) :
    tokens? text = some [.word text] := by
  cases text with
  | nil => exact absurd rfl hne
  | cons c text =>
    obtain ⟨hc, hrest⟩ := List.forall_mem_cons.1 h
    have hfirst : feed start c = ⟨[], .word [c]⟩ := by
      simp [feed, start, feedBetween, isQuote_eq_false_of_isWordChar hc, hc]
    rw [tokens?, List.foldl_cons, hfirst, foldl_word hrest]
    simp [finish, push]

end ProcedureCatalog.Sql
