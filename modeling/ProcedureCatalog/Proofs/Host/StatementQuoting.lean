/-
# How a statement reaches the database

The shell command for an SQL text is read twice: the shell of the host reads a command for `qsh`,
and `qsh` reads a command for `db2`. The text is quoted once. The outer reading undoes that, so
the inner reading finds the text as it is, between double quotes.

* `isCommand_db2Script_iff` : what the outer reading gives.
* `isCommand_innerScript_iff` : when the inner reading gives the statement.
* `statement_arrives_iff` : both readings together.
* `quotedName_is_torn` : a statement that does not arrive.
-/
import ProcedureCatalog.Host.Command
import ProcedureCatalog.Proofs.Shell.Reading
import ProcedureCatalog.Proofs.Text.Trimming

namespace ProcedureCatalog.Host

open Shell Shell.Reader

/-- The script that `qsh` gets for a statement in which the outer shell expands nothing. -/
def innerScript (statement : List Char) : List Char :=
  ['d', 'b', '2', ' ', '"'] ++ (statement ++ ['"'])

/-! ## The outer reading -/

section

variable {tokens : List Token} {parts : List Part} {c : Char} {statement : List Char}

/-- A quoted character is read as the character. -/
theorem reads_doubleQuotedChar (hc : c ≠ '$' ∧ c.toNat ≠ 0x60) :
    Reads ⟨tokens, some parts, .double⟩ (doubleQuotedChar c)
      ⟨tokens, some (.char c :: parts), .double⟩ := by
  unfold doubleQuotedChar
  split
  · next hsign =>
    have hquoted : c = '$' ∨ c = '"' ∨ c = '\\' ∨ c.toNat = 0x60 := by tauto
    exact .cons feed_double_backslash rfl (.cons (feed_doubleEscape_sign hquoted) rfl (.nil _))
  · next hsign =>
    have hplain : c ≠ '"' ∧ c ≠ '$' ∧ c.toNat ≠ 0x60 := ⟨fun h => hsign (.inr h), hc⟩
    exact .cons (feed_double hplain fun h => hsign (.inl h)) rfl (.nil _)

/-- Dollar signs and backquotes are not quoted, so they start expansions. -/
theorem startsNone_doubleQuotedChar (hc : c = '$' ∨ c.toNat = 0x60) :
    startsNone ⟨tokens, some parts, .double⟩ (doubleQuotedChar c) = false := by
  have hsign : ¬ (c = '\\' ∨ c = '"') := by
    rintro (rfl | rfl) <;> simp at hc
  rw [doubleQuotedChar, if_neg hsign, startsNone, isExpansion_feed_double hc]
  rfl

/-- A quoted statement without dollar signs and backquotes is read as the statement. -/
theorem reads_doubleQuoted (h : ∀ c ∈ statement, c ≠ '$' ∧ c.toNat ≠ 0x60) :
    Reads ⟨tokens, some parts, .double⟩ (statement.flatMap doubleQuotedChar)
      ⟨tokens, some ((statement.map .char).reverse ++ parts), .double⟩ := by
  induction statement generalizing parts with
  | nil => exact .nil _
  | cons c statement ih =>
    obtain ⟨hc, hrest⟩ := List.forall_mem_cons.1 h
    rw [List.flatMap_cons, List.map_cons, List.reverse_cons, List.append_assoc]
    exact (reads_doubleQuotedChar hc).append (ih hrest)

/-- Where a quoted statement starts no expansion it has no dollar signs and backquotes. -/
theorem plain_of_startsNone
    (h : startsNone ⟨tokens, some parts, .double⟩ (statement.flatMap doubleQuotedChar) = true) :
    ∀ c ∈ statement, c ≠ '$' ∧ c.toNat ≠ 0x60 := by
  induction statement generalizing parts with
  | nil => simp
  | cons c statement ih =>
    rw [List.flatMap_cons] at h
    have hc : c ≠ '$' ∧ c.toNat ≠ 0x60 := by
      rw [← not_or]
      intro hc
      rw [Reader.startsNone_append, startsNone_doubleQuotedChar hc] at h
      exact Bool.noConfusion h
    exact List.forall_mem_cons.2 ⟨hc, ih ((reads_doubleQuotedChar hc).startsNone_append h)⟩

end

/-- The words that the outer shell has finished before the script. -/
def outerTokens : List Token := [literalToken "-c".toList, literalToken "qsh".toList]

/-- What the outer shell reads before the statement. -/
theorem reads_opening :
    Reads start "qsh -c \"db2 \\\"".toList
      ⟨outerTokens, some ("db2 \"".toList.map .char).reverse, .double⟩ :=
  ⟨by decide, by decide⟩

/-- What the outer shell reads behind the statement. -/
theorem reads_closing (tokens : List Token) (parts : List Part) :
    Reads ⟨tokens, some parts, .double⟩ "\\\"\"".toList
      ⟨tokens, some (.char '"' :: parts), .plain⟩ :=
  ⟨rfl, rfl⟩

theorem toList_db2Script (statement : String) :
    (db2Script statement).toList =
      "qsh -c \"db2 \\\"".toList ++ (statement.toList.flatMap doubleQuotedChar ++ "\\\"\"".toList) := by
  have hquoted : (doubleQuoted statement).toList = statement.toList.flatMap doubleQuotedChar :=
    String.toList_ofList
  change ("qsh -c \"db2 \\\"" ++ doubleQuoted statement ++ "\\\"\"").toList = _
  rw [String.toList_append, String.toList_append, hquoted, List.append_assoc]

/-- The outer shell hands a statement without dollar signs and backquotes on as it is. -/
theorem isCommand_db2Script {statement : String}
    (h : ∀ c ∈ statement.toList, c ≠ '$' ∧ c.toNat ≠ 0x60) :
    IsCommand (db2Script statement).toList
      ["qsh".toList, "-c".toList, innerScript statement.toList] := by
  rw [toList_db2Script]
  have hall := reads_opening.append ((reads_doubleQuoted h).append (reads_closing _ _))
  refine ⟨(congrArg finish hall.reader).trans ?_, hall.quiet⟩
  simp [finish, endWord, outerTokens, innerScript, literalToken]

/-- A script for `qsh` is the statement as it is, and the outer shell finds nothing to expand. -/
theorem isCommand_db2Script_iff (statement : String) (script : List Char) :
    IsCommand (db2Script statement).toList ["qsh".toList, "-c".toList, script] ↔
      (∀ c ∈ statement.toList, c ≠ '$' ∧ c.toNat ≠ 0x60) ∧
        script = innerScript statement.toList := by
  constructor
  · intro h
    have hquiet := h.quiet
    rw [toList_db2Script] at hquiet
    have hquoted := reads_opening.startsNone_append hquiet
    rw [Reader.startsNone_append, Bool.and_eq_true] at hquoted
    have hplain := plain_of_startsNone hquoted.1
    refine ⟨hplain, ?_⟩
    have hwords := h.unique (isCommand_db2Script hplain)
    exact (List.cons.inj (List.cons.inj (List.cons.inj hwords).2).2).1
  · rintro ⟨hplain, rfl⟩
    exact isCommand_db2Script hplain

/-! ## The inner reading -/

/-- `qsh` hands the statement to `db2` exactly when it means itself between double quotes. -/
theorem isCommand_innerScript_iff (statement : List Char) :
    IsCommand (innerScript statement) ["db2".toList, statement] ↔ MeansItself statement := by
  have hopening : Reads start ['d', 'b', '2', ' ', '"']
      ⟨[literalToken "db2".toList], some [], .double⟩ := ⟨by decide, by decide⟩
  rw [← quoted_iff [literalToken "db2".toList] statement]
  constructor
  · intro h
    refine ⟨?_, hopening.startsNone_append h.quiet⟩
    have htokens := h.tokens
    rw [tokens?, innerScript, List.foldl_append, hopening.reader] at htokens
    exact htokens
  · rintro ⟨hfinish, hquiet⟩
    constructor
    · rw [tokens?, innerScript, List.foldl_append, hopening.reader]
      exact hfinish
    · rw [innerScript, Reader.startsNone_append, hopening.reader, hopening.quiet]
      exact hquiet

/-! ## Both readings -/

/-- An SQL text that is not blank has a shell command. -/
theorem db2Command_eq_ok {sql : String} (h : Text.allBlank sql.toList = false) :
    db2Command sql = .ok (db2Script (Text.trimmed sql)) := by
  have hne : Text.trimmed sql ≠ "" := by
    intro hempty
    refine Text.trim_ne_nil h ?_
    rw [← String.toList_ofList (l := Text.trim sql.toList)]
    exact congrArg String.toList hempty
  unfold db2Command
  rw [if_neg]
  simpa using hne

/-- **Which statements reach the database unchanged.** For an SQL text that is not blank there is
a shell command. The two readings of it hand the trimmed text to `db2` as its only argument,
without an expansion, exactly when the text has no double quote, dollar sign or backquote and each
of its backslashes stands before a character that is neither a backslash nor a line feed. -/
theorem statement_arrives_iff (sql : String) (h : Text.allBlank sql.toList = false) :
    ∃ command, db2Command sql = .ok command ∧
      ((∃ script, IsCommand command.toList ["qsh".toList, "-c".toList, script] ∧
          IsCommand script ["db2".toList, Text.trim sql.toList]) ↔
        MeansItself (Text.trim sql.toList)) := by
  refine ⟨_, db2Command_eq_ok h, ?_⟩
  have htrim : (Text.trimmed sql).toList = Text.trim sql.toList := String.toList_ofList
  constructor
  · rintro ⟨script, houter, hinner⟩
    obtain ⟨-, rfl⟩ := (isCommand_db2Script_iff _ _).1 houter
    rw [htrim] at hinner
    exact (isCommand_innerScript_iff _).1 hinner
  · intro hself
    refine ⟨innerScript (Text.trim sql.toList), ?_, (isCommand_innerScript_iff _).2 hself⟩
    rw [isCommand_db2Script_iff, htrim]
    exact ⟨fun c hc => (hself.plain c hc).2, rfl⟩

/-- A statement with a backslash and single quotes arrives. -/
theorem statement_arrives_with_backslash :
    ∃ command, db2Command " SELECT 'a\\b' FROM T " = .ok command ∧
      ∃ script, IsCommand command.toList ["qsh".toList, "-c".toList, script] ∧
        IsCommand script ["db2".toList, "SELECT 'a\\b' FROM T".toList] := by
  obtain ⟨command, hcommand, hiff⟩ := statement_arrives_iff " SELECT 'a\\b' FROM T " (by decide)
  have htrim : Text.trim " SELECT 'a\\b' FROM T ".toList = "SELECT 'a\\b' FROM T".toList := by
    decide
  rw [htrim] at hiff
  exact ⟨command, hcommand, hiff.2 (by decide)⟩

/-- A statement with a quoted name does not arrive: `db2` gets two arguments, without the double
quotes. -/
theorem quotedName_is_torn :
    ∃ command, db2Command "SELECT \"A B\" FROM T" = .ok command ∧
      (∃ script, IsCommand command.toList ["qsh".toList, "-c".toList, script] ∧
        IsCommand script ["db2".toList, "SELECT A".toList, "B FROM T".toList]) ∧
      ¬ ∃ script, IsCommand command.toList ["qsh".toList, "-c".toList, script] ∧
        IsCommand script ["db2".toList, "SELECT \"A B\" FROM T".toList] := by
  have htrim : (Text.trimmed "SELECT \"A B\" FROM T").toList = "SELECT \"A B\" FROM T".toList := by
    decide
  refine ⟨_, db2Command_eq_ok (by decide), ?_, ?_⟩
  · refine ⟨innerScript "SELECT \"A B\" FROM T".toList, ?_, by decide, by decide⟩
    rw [isCommand_db2Script_iff, htrim]
    exact ⟨by simp, rfl⟩
  · rintro ⟨script, houter, hinner⟩
    obtain ⟨-, rfl⟩ := (isCommand_db2Script_iff _ _).1 houter
    rw [htrim] at hinner
    have hself := (isCommand_innerScript_iff _).1 hinner
    exact absurd hself (by decide)

end ProcedureCatalog.Host
