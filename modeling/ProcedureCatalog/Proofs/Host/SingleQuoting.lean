/-
# Values in single quotes

Commands for the system are handed to `qsh` as one script in single quotes. The quotes are closed
and opened again around each single quote of a value, so the outer shell reads back any value.

* `spells_quotedWord` : by the quoting rules alone, a value in single quotes stands for itself.
* `quotedWord_is_one_word` : a value in single quotes is read back, and no other one is quoted like
  it.
* `isCommand_qshCommand` : a script in single quotes arrives as it is.
* `systemCommand_eq`, `systemCommand_cat_eq` : the commands for the system as scripts in single
  quotes.
-/
import ProcedureCatalog.Host.Command
import ProcedureCatalog.Proofs.Shell.Pieces

namespace ProcedureCatalog.Host

open Shell Shell.Reader

/-! ## All characters of a text -/

/-- Every character of the text satisfies `P`. -/
def AllChars (P : Char → Prop) (text : String) : Prop := ∀ c ∈ text.toList, P c

-- the characters are those of the text, not all there are
instance (P : Char → Prop) [DecidablePred P] (text : String) : Decidable (AllChars P text) :=
  List.decidableBAll _ _

theorem allChars_append {P : Char → Prop} {a b : String} :
    AllChars P (a ++ b) ↔ AllChars P a ∧ AllChars P b := by
  unfold AllChars
  rw [String.toList_append, List.forall_mem_append]

/-! ## Quoted texts -/

theorem toList_singleQuoted (text : String) :
    (singleQuoted text).toList = text.toList.flatMap singleQuotedChar :=
  String.toList_ofList

theorem singleQuoted_append (a b : String) :
    singleQuoted (a ++ b) = singleQuoted a ++ singleQuoted b := by
  rw [← String.toList_inj, String.toList_append]
  simp only [toList_singleQuoted, String.toList_append, List.flatMap_append]

/-- A text without single quotes is quoted as it is. -/
theorem singleQuoted_eq_self {text : String} (h : AllChars (·.toNat ≠ 0x27) text) :
    singleQuoted text = text := by
  have hchar : ∀ c ∈ text.toList, singleQuotedChar c = [c] := fun c hc => if_neg (h c hc)
  rw [← String.toList_inj, toList_singleQuoted, List.flatMap_congr hchar, List.flatMap_singleton']

/-! ## Values -/

/-- A value as a word in single quotes. -/
def quotedWord (text : String) : String := "'" ++ singleQuoted text ++ "'"

theorem toList_quotedWord (text : String) : (quotedWord text).toList =
    singleQuote :: (text.toList.flatMap singleQuotedChar ++ [singleQuote]) := by
  rw [quotedWord, String.toList_append, String.toList_append, toList_singleQuoted]
  rfl

/-- Behind a literal stretch that is still open, the quoted text goes on with the text: each single
quote in it closes the stretch, stands behind a backslash, and opens the next stretch. -/
theorem spells_stretch_append (text : List Char) {stretch : List Char}
    (h : ∀ c ∈ stretch, c.toNat ≠ 0x27) :
    Spells (singleQuote :: (stretch ++ (text.flatMap singleQuotedChar ++ [singleQuote])))
      (stretch ++ text) := by
  induction text generalizing stretch with
  | nil =>
    rw [List.append_nil]
    exact .piece (.single h)
  | cons c text ih =>
    by_cases hquote : c.toNat = 0x27
    · have hc : c = singleQuote := by rw [singleQuote, ← hquote, Char.ofNat_toNat]
      have hescaped : c ≠ '\n' := by
        rintro rfl
        simp at hquote
      have hrest := ih (List.forall_mem_nil _)
      have hjoin := Spells.join (.single h) (.join (.escaped hescaped) hrest)
      rw [List.flatMap_cons, singleQuotedChar, if_pos hquote]
      simpa [hc] using hjoin
    · have hlonger : ∀ d ∈ stretch ++ [c], d.toNat ≠ 0x27 :=
        List.forall_mem_append.2 ⟨h, List.forall_mem_singleton.2 hquote⟩
      have hrest := ih hlonger
      rw [List.flatMap_cons, singleQuotedChar, if_neg hquote]
      simpa using hrest

/-- A value in single quotes is made of pieces that stand for the value. -/
theorem spells_quotedWord (text : String) : Spells (quotedWord text).toList text.toList := by
  rw [toList_quotedWord]
  exact spells_stretch_append text.toList (List.forall_mem_nil _)

/-- **A value in single quotes is read back.** By the quoting rules the text between the outer
quotes and these stand for the value, and for nothing else. A shell reads them as one word, the
value. In the middle of a line it adds just the value to the current word, and no quotes are open
behind it. So two values never have the same quoted text. -/
theorem quotedWord_is_one_word :
    (∀ text : String,
      (∀ value, Spells (quotedWord text).toList value ↔ value = text.toList) ∧
      IsCommand (quotedWord text).toList [text.toList] ∧
      ∀ tokens word, Reads ⟨tokens, word, .plain⟩ (quotedWord text).toList
        ⟨tokens, some ((text.toList.map .char).reverse ++ word.getD []), .plain⟩) ∧
    Function.Injective singleQuoted := by
  constructor
  · intro text
    have hspells := spells_quotedWord text
    refine ⟨fun value => ⟨fun h => h.unique hspells, ?_⟩, hspells.isCommand, ?_⟩
    · rintro rfl
      exact hspells
    · exact fun tokens word => hspells.reads
  · intro text text' h
    have hspells := spells_quotedWord text'
    rw [quotedWord, ← h] at hspells
    exact String.toList_inj.1 ((spells_quotedWord text).unique hspells)

/-- Quotes at either end, two in a row, and a backslash before a quote. -/
example : quotedWord "'a''\\'" = "''\\''a'\\'''\\''\\'\\'''" := by
  decide +kernel

/-! ## Scripts -/

/-- The command that runs a script in `qsh`. -/
def qshCommand (script : String) : String := "qsh -c '" ++ singleQuoted script ++ "'"

/-- A script in single quotes arrives as it is. -/
theorem isCommand_qshCommand (script : String) :
    IsCommand (qshCommand script).toList ["qsh".toList, "-c".toList, script.toList] := by
  have hopening : Reads start "qsh -c ".toList
      ⟨[literalToken "-c".toList, literalToken "qsh".toList], none, .plain⟩ :=
    ⟨by decide, by decide⟩
  have hall := hopening.append (spells_quotedWord script).reads
  have hline : (qshCommand script).toList = "qsh -c ".toList ++ (quotedWord script).toList := by
    rw [toList_quotedWord, qshCommand, String.toList_append, String.toList_append,
      toList_singleQuoted]
    rfl
  rw [hline]
  refine ⟨(congrArg finish hall.reader).trans ?_, hall.quiet⟩
  simp [finish, endWord, literalToken]

/-- A script that runs a command for the system, in single quotes; only that command needs to be
quoted. -/
theorem qshCommand_system (command : String) {rest : String} (h : AllChars (·.toNat ≠ 0x27) rest) :
    qshCommand ("system \"" ++ command ++ "\"" ++ rest) =
      "qsh -c '" ++ "system \"" ++ singleQuoted command ++ "\"" ++ rest ++ "'" := by
  have hopening : singleQuoted "system \"" = "system \"" := singleQuoted_eq_self (by decide)
  have hclosing : singleQuoted "\"" = "\"" := singleQuoted_eq_self (by decide)
  rw [qshCommand, singleQuoted_append _ rest, singleQuoted_append _ "\"",
    singleQuoted_append _ command, hopening, hclosing, singleQuoted_eq_self h]
  simp only [String.append_assoc]

/-- The command for the system is a script in single quotes. -/
theorem systemCommand_eq (command : String) :
    systemCommand command = qshCommand ("system \"" ++ command ++ "\"" ++ "") := by
  have hstart : "qsh -c 'system \"" = "qsh -c '" ++ "system \"" := by decide
  have hend : "\"'" = "\"" ++ "'" := by decide
  unfold systemCommand
  rw [hstart, hend, qshCommand_system command (by decide)]
  simp only [String.append_assoc, String.append_empty]

/-- The command for the system followed by the printing of a file, as a script in single quotes. -/
theorem systemCommand_cat_eq (command : String) {path : String}
    (h : AllChars (·.toNat ≠ 0x27) path) :
    "qsh -c 'system \"" ++ singleQuoted command ++ "\" && cat \"" ++ path ++ "\"'" =
      qshCommand ("system \"" ++ command ++ "\"" ++ (" && cat \"" ++ path ++ "\"")) := by
  have hrest : AllChars (·.toNat ≠ 0x27) (" && cat \"" ++ path ++ "\"") :=
    allChars_append.2 ⟨allChars_append.2 ⟨by decide, h⟩, by decide⟩
  have hstart : "qsh -c 'system \"" = "qsh -c '" ++ "system \"" := by decide
  have hbetween : "\" && cat \"" = "\"" ++ " && cat \"" := by decide
  have hend : "\"'" = "\"" ++ "'" := by decide
  rw [hstart, hbetween, hend, qshCommand_system command hrest]
  simp only [String.append_assoc]

end ProcedureCatalog.Host
