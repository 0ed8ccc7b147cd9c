/-
# Words in pieces

A word of a command line can be written in pieces that touch: stretches in single quotes, which are
literal, characters behind a backslash, and characters that have no meaning of their own outside
quotes. The pieces join into one word.

* `Spells` : the texts that are written like this, and the words they stand for.
* `Spells.reads` : the reader goes over such a text from outside quotes to outside quotes, and adds
  just that word.
* `Spells.isCommand`, `Spells.unique` : alone on a line the text is that one word, and no other.
-/
import ProcedureCatalog.Proofs.Shell.Reading

namespace ProcedureCatalog.Shell

open Reader

/-! ## The quoting rules -/

/-- The single quote. -/
def singleQuote : Char := Char.ofNat 0x27

/-- The characters, single quotes and backquotes apart, that may mean something else than themselves
outside quotes. -/
def signs : List Char :=
  ['|', '&', ';', '<', '>', '(', ')', '$', '\\', '"', ' ', '\t', '\n', '*', '?', '[', '#', '~', '=',
    '%']

/-- A character that stands for itself outside quotes. -/
def IsBare (c : Char) : Prop := c ∉ signs ∧ c.toNat ≠ 0x27 ∧ c.toNat ≠ 0x60

instance (c : Char) : Decidable (IsBare c) := inferInstanceAs (Decidable (_ ∧ _))

/-- A piece of a word and what it stands for. -/
inductive IsPiece : List Char → List Char → Prop
  | single {stretch : List Char} (h : ∀ c ∈ stretch, c.toNat ≠ 0x27) :
      IsPiece (singleQuote :: (stretch ++ [singleQuote])) stretch
  | escaped {c : Char} (h : c ≠ '\n') : IsPiece ['\\', c] [c]
  | bare {c : Char} (h : IsBare c) : IsPiece [c] [c]

/-- The text is made of pieces that touch, and the value is what they stand for, one after the
other. -/
inductive Spells : List Char → List Char → Prop
  | piece {piece value : List Char} (h : IsPiece piece value) : Spells piece value
  | join {piece first text value : List Char} (h : IsPiece piece first)
      (hrest : Spells text value) : Spells (piece ++ text) (first ++ value)

/-! ## Reading pieces -/

section

variable {tokens : List Token} {word : Option (List Part)} {parts : List Part} {c : Char}

/-- A quote opens a word, if there is none yet, and a literal stretch of it. -/
theorem feed_plain_quote : feed ⟨tokens, word, .plain⟩ singleQuote =
    ⟨tokens, some (word.getD []), .single⟩ := rfl

theorem feed_single (h : c.toNat ≠ 0x27) : feed ⟨tokens, some parts, .single⟩ c =
    ⟨tokens, some (.char c :: parts), .single⟩ := by
  simp [feed, push, h]

theorem feed_single_quote : feed ⟨tokens, some parts, .single⟩ singleQuote =
    ⟨tokens, some parts, .plain⟩ := rfl

theorem feed_plain_backslash : feed ⟨tokens, word, .plain⟩ '\\' = ⟨tokens, word, .escape⟩ := rfl

theorem feed_escape (h : c ≠ '\n') : feed ⟨tokens, word, .escape⟩ c =
    ⟨tokens, some (.char c :: word.getD []), .plain⟩ := by
  simp [feed, push, enter, h]

theorem feed_plain_bare (h : IsBare c) : feed ⟨tokens, word, .plain⟩ c =
    ⟨tokens, some (.char c :: word.getD []), .plain⟩ := by
  obtain ⟨hsign, hquote, hback⟩ := h
  simp only [signs, List.mem_cons, List.not_mem_nil, or_false, not_or] at hsign
  simp [feed, feedPlain, isOperatorChar, push, enter, hsign, hquote, hback]

/-- The characters of a literal stretch are read as they are. -/
theorem reads_stretch {stretch : List Char} (h : ∀ c ∈ stretch, c.toNat ≠ 0x27) :
    Reads ⟨tokens, some parts, .single⟩ stretch
      ⟨tokens, some ((stretch.map .char).reverse ++ parts), .single⟩ := by
  induction stretch generalizing parts with
  | nil => exact .nil _
  | cons c stretch ih =>
    obtain ⟨hc, hrest⟩ := List.forall_mem_cons.1 h
    rw [List.map_cons, List.reverse_cons, List.append_assoc]
    exact .cons (feed_single hc) rfl (ih hrest)

/-- A piece adds what it stands for to the current word. -/
theorem IsPiece.reads {piece value : List Char} (h : IsPiece piece value) :
    Reads ⟨tokens, word, .plain⟩ piece
      ⟨tokens, some ((value.map .char).reverse ++ word.getD []), .plain⟩ := by
  cases h with
  | single h =>
    exact .cons feed_plain_quote rfl ((reads_stretch h).append (.cons feed_single_quote rfl (.nil _)))
  | escaped h => exact .cons feed_plain_backslash rfl (.cons (feed_escape h) rfl (.nil _))
  | bare h => exact .cons (feed_plain_bare h) rfl (.nil _)

/-- Pieces that touch add what they stand for to the current word, and behind them no quotes are
open. -/
theorem Spells.reads {text value : List Char} (h : Spells text value) :
    Reads ⟨tokens, word, .plain⟩ text
      ⟨tokens, some ((value.map .char).reverse ++ word.getD []), .plain⟩ := by
  induction h generalizing word with
  | piece h => exact h.reads
  | join h _ ih =>
    rw [List.map_append, List.reverse_append, List.append_assoc]
    exact h.reads.append ih

end

/-! ## Words -/

namespace Spells

variable {text value value' : List Char}

/-- On a line of their own pieces that touch are one word. -/
theorem isCommand (h : Spells text value) : IsCommand text [value] := by
  have hread : Reads start text ⟨[], some ((value.map .char).reverse ++ []), .plain⟩ := h.reads
  refine ⟨(congrArg finish hread.reader).trans ?_, hread.quiet⟩
  simp [finish, endWord, literalToken]

/-- Pieces that touch stand for one word only. -/
theorem unique (h : Spells text value) (h' : Spells text value') : value = value' :=
  List.singleton_injective (h.isCommand.unique h'.isCommand)

end Spells

/-- A bare character, a stretch with a blank and a blank behind a backslash are one word. -/
example : Spells (['a'] ++ (singleQuote :: ([' ', 'b'] ++ [singleQuote]) ++ ['\\', ' ']))
    ['a', ' ', 'b', ' '] :=
  .join (.bare (by decide)) (.join (.single (by simp)) (.piece (.escaped (by decide))))

end ProcedureCatalog.Shell
