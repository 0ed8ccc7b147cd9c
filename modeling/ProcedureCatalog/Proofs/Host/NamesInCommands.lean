/-
# How names reach the system

A command about named objects is read twice: the shell of the host hands the script in single
quotes to `qsh`, and `qsh` reads the command for the system between double quotes. Valid names hold
no quote, backslash or backquote, but they may hold a dollar sign, and that starts an expansion.

* `ObjectRequest` : the commands that are built around names, with what they should hand on.
* `ObjectRequest.allChars_systemText_iff` : the characters of a command for the system are those of
  the names, fixed ones apart.
* `ObjectRequest.command_eq_ok` : with valid names the command is a script in single quotes.
* `reads_inert` : what the inner reading makes of a text between double quotes.
* `names_arrive_iff` : both readings together.
* `dollar_name_is_expanded` : a valid name that does not arrive.
-/
import ProcedureCatalog.Proofs.Host.SingleQuoting
import ProcedureCatalog.Proofs.Host.StatementQuoting
import ProcedureCatalog.Proofs.ObjectName.Valid

namespace ProcedureCatalog.Host

open Shell Shell.Reader

/-! ## Requests -/

/-- A request about objects on the host, with the names it is given. -/
inductive ObjectRequest where
  | fileMembers (library file outputLibrary : String)
  | databaseRelations (library file outputLibrary : String)
  | programReferences (library program outputLibrary : String)
  | readSource (library file member : String)
  deriving DecidableEq, Repr

namespace ObjectRequest

/-- The names with what they refer to. -/
def names : ObjectRequest → List (ObjectKind × String)
  | fileMembers library file outputLibrary =>
    [(.library, library), (.file, file), (.library, outputLibrary)]
  | databaseRelations library file outputLibrary =>
    [(.library, library), (.file, file), (.library, outputLibrary)]
  | programReferences library program outputLibrary =>
    [(.library, library), (.object, program), (.library, outputLibrary)]
  | readSource library file member => [(.library, library), (.file, file), (.member, member)]

/-- The shell command for the request. -/
def command : ObjectRequest → Except RemoteError String
  | fileMembers library file outputLibrary =>
    (Host.fileMembers library file outputLibrary).map OutfileQuery.command
  | databaseRelations library file outputLibrary =>
    (Host.databaseRelations library file outputLibrary).map OutfileQuery.command
  | programReferences library program outputLibrary =>
    (Host.programReferences library program outputLibrary).map OutfileQuery.command
  | readSource library file member => readSourceCommand library file member

/-- The command that the system should get, with the names as they are. -/
def systemText : ObjectRequest → String
  | fileMembers library file outputLibrary =>
    "DSPFD FILE(" ++ library ++ "/" ++ file ++ ") TYPE(*MBRLIST) OUTPUT(*OUTFILE) OUTFILE(" ++
      outputLibrary ++ "/MBRLIST)"
  | databaseRelations library file outputLibrary =>
    "DSPDBR FILE(" ++ library ++ "/" ++ file ++ ") OUTPUT(*OUTFILE) OUTFILE(" ++ outputLibrary ++
      "/TMPDBR)"
  | programReferences library program outputLibrary =>
    "DSPPGMREF PGM(" ++ library ++ "/" ++ program ++ ") OUTPUT(*OUTFILE) OUTFILE(" ++
      outputLibrary ++ "/TMPPGR)"
  | readSource library file member =>
    "CPYTOSTMF FROMMBR('/QSYS.LIB/" ++ library ++ ".LIB/" ++ file ++ ".FILE/" ++ member ++
      ".MBR') TOSTMF('" ++ sourceStreamFile library file member ++ "') STMFOPT(*REPLACE)"

/-- The stream file that is printed behind the command, if there is one. -/
def printed : ObjectRequest → Option String
  | readSource library file member => some (sourceStreamFile library file member)
  | _ => none

/-- What `qsh` should read: the command for the system as one argument, and behind it the stream
file as the one argument of `cat`. -/
def tokens (r : ObjectRequest) : List Token :=
  literalToken "system".toList :: literalToken r.systemText.toList ::
    match r.printed with
    | some path => [.operator "&&".toList, literalToken "cat".toList, literalToken path.toList]
    | none => []

/-- The script for `qsh`. -/
def script (r : ObjectRequest) : String :=
  "system \"" ++ r.systemText ++ "\"" ++
    match r.printed with
    | some path => " && cat \"" ++ path ++ "\""
    | none => ""

end ObjectRequest

/-! ## The characters of a request -/

namespace ObjectRequest

/-- A character around the names. -/
def isFixedChar (c : Char) : Bool := c.isAlpha || "()*/'_. ".toList.contains c

/-- Three names stand between four fixed texts. -/
theorem allChars_three {P : Char → Prop} {a b c d first second third : String}
    (ha : AllChars P a) (hb : AllChars P b) (hc : AllChars P c) (hd : AllChars P d) :
    AllChars P (a ++ first ++ b ++ second ++ c ++ third ++ d) ↔
      AllChars P first ∧ AllChars P second ∧ AllChars P third := by
  simp only [allChars_append, ha, hb, hc, hd, true_and, and_true, and_assoc]

section

variable {P : Char → Prop} (hP : ∀ c, isFixedChar c = true → P c)

include hP

theorem allChars_of_fixed {text : String} (h : AllChars (isFixedChar · = true) text) :
    AllChars P text :=
  fun c hc => hP c (h c hc)

theorem allChars_sourceStreamFile_iff (library file member : String) :
    AllChars P (sourceStreamFile library file member) ↔
      AllChars P library ∧ AllChars P file ∧ AllChars P member := by
  refine allChars_three ?_ ?_ ?_ ?_ <;> exact allChars_of_fixed hP (by decide +kernel)

/-- What holds of the fixed characters holds of a command for the system exactly when it holds of
the names. -/
theorem allChars_systemText_iff (r : ObjectRequest) :
    AllChars P r.systemText ↔ ∀ n ∈ r.names, AllChars P n.2 := by
  cases r <;> simp only [names, List.forall_mem_cons, List.not_mem_nil, IsEmpty.forall_iff,
    implies_true, and_true]
  case readSource library file member =>
    have hlast : AllChars P "') STMFOPT(*REPLACE)" := allChars_of_fixed hP (by decide +kernel)
    unfold systemText
    rw [allChars_append, allChars_append, allChars_sourceStreamFile_iff hP, allChars_three]
    · exact ⟨fun h => h.1.1, fun h => ⟨⟨h, h⟩, hlast⟩⟩
    all_goals exact allChars_of_fixed hP (by decide +kernel)
  all_goals
    refine allChars_three ?_ ?_ ?_ ?_ <;> exact allChars_of_fixed hP (by decide +kernel)

/-- What holds of the fixed characters and of the names holds of the stream file. -/
theorem allChars_of_mem_printed {r : ObjectRequest} (h : ∀ n ∈ r.names, AllChars P n.2) :
    ∀ path ∈ r.printed, AllChars P path := by
  intro path hpath
  cases r <;> simp only [printed, Option.mem_def, Option.some.injEq, reduceCtorEq] at hpath
  case readSource library file member =>
    subst hpath
    simpa [names, allChars_sourceStreamFile_iff hP] using h

end

end ObjectRequest

/-! ## The outer reading -/

/-- Valid names hold no single quotes. -/
theorem allChars_of_isValid {name : String} (h : ObjectName.IsValid name.toList) :
    AllChars (fun c => c.toNat ≠ 0x27) name :=
  fun c hc => Text.forall_ascii (P := fun c => ObjectName.isNameChar c = true → c.toNat ≠ 0x27)
    (by decide +kernel) (h.isAscii c hc) (h.plain c hc)

theorem validName_eq_ok {kind : ObjectKind} {name : String}
    (h : ObjectName.validate kind name = .ok ()) : validName kind name = .ok () := by
  rw [validName, h]
  rfl

namespace ObjectRequest

/-- With valid names there is a command, and it is the script in single quotes. -/
theorem command_eq_ok {r : ObjectRequest}
    (h : ∀ n ∈ r.names, ObjectName.validate n.1 n.2 = .ok ()) :
    r.command = .ok (qshCommand r.script) := by
  cases r <;> simp only [names, List.forall_mem_cons, List.not_mem_nil, IsEmpty.forall_iff,
    implies_true, and_true] at h <;> obtain ⟨hfirst, hsecond, hthird⟩ := h
  case readSource library file member =>
    have hpath : AllChars (fun c => c.toNat ≠ 0x27) (sourceStreamFile library file member) := by
      refine (allChars_three (by decide) (by decide) (by decide) (by decide)).2 ⟨?_, ?_, ?_⟩
      · exact allChars_of_isValid (ObjectName.validate_eq_ok_iff.1 hfirst)
      · exact allChars_of_isValid (ObjectName.validate_eq_ok_iff.1 hsecond)
      · exact allChars_of_isValid (ObjectName.validate_eq_ok_iff.1 hthird)
    simp only [command, readSourceCommand, validName_eq_ok hfirst, validName_eq_ok hsecond,
      validName_eq_ok hthird]
    exact congrArg Except.ok (systemCommand_cat_eq _ hpath)
  all_goals
    simp only [command, Host.fileMembers, Host.databaseRelations, Host.programReferences,
      validName_eq_ok hfirst, validName_eq_ok hsecond, validName_eq_ok hthird]
    exact congrArg Except.ok (systemCommand_eq _)

end ObjectRequest

/-! ## The inner reading -/

/-- A character that has no meaning inside double quotes, unless it is a dollar sign. -/
def IsInert (c : Char) : Prop := c ≠ '"' ∧ c ≠ '\\' ∧ c.toNat ≠ 0x60

instance (c : Char) : Decidable (IsInert c) := inferInstanceAs (Decidable (_ ∧ _))

theorem isInert_of_isNameChar {c : Char} (h : ObjectName.isNameChar c = true) : IsInert c :=
  Text.forall_ascii (P := fun c => ObjectName.isNameChar c = true → IsInert c) (by decide +kernel)
    (ObjectName.isAscii_of_isNameChar h) h

theorem isInert_of_isFixedChar {c : Char} (h : ObjectRequest.isFixedChar c = true) :
    IsInert c := by
  have hascii : Text.IsAscii c := by
    simp only [ObjectRequest.isFixedChar, Bool.or_eq_true, List.contains_iff_mem] at h
    rcases h with h | h
    · exact Text.isAscii_of_isAlphanum (by rw [Char.isAlphanum, h, Bool.true_or])
    · have hall : AllChars Text.IsAscii "()*/'_. " := by decide
      exact hall c h
  exact Text.forall_ascii (P := fun c => ObjectRequest.isFixedChar c = true → IsInert c)
    (by decide +kernel) hascii h

section

variable {tokens : List Token} {parts : List Part} {text : List Char}

/-- Quoting leaves inert texts alone. -/
theorem flatMap_doubleQuotedChar_eq_self (h : ∀ c ∈ text, IsInert c) :
    text.flatMap doubleQuotedChar = text := by
  have hchar : ∀ c ∈ text, doubleQuotedChar c = [c] := by
    intro c hc
    obtain ⟨hquote, hback, -⟩ := h c hc
    exact if_neg (not_or.2 ⟨hback, hquote⟩)
  rw [List.flatMap_congr hchar, List.flatMap_singleton']

/-- An inert text without dollar signs is read as the text between double quotes. -/
theorem reads_inert (h : ∀ c ∈ text, IsInert c) (hdollar : '$' ∉ text) :
    Reads ⟨tokens, none, .plain⟩ ('"' :: (text ++ ['"']))
      ⟨tokens, some (text.map .char).reverse, .plain⟩ := by
  have hplain : ∀ c ∈ text, c ≠ '$' ∧ c.toNat ≠ 0x60 :=
    fun c hc => ⟨fun hd => hdollar (hd ▸ hc), (h c hc).2.2⟩
  have htext : Reads ⟨tokens, some [], .double⟩ (text.flatMap doubleQuotedChar)
      ⟨tokens, some ((text.map .char).reverse ++ []), .double⟩ := reads_doubleQuoted hplain
  rw [flatMap_doubleQuotedChar_eq_self h, List.append_nil] at htext
  exact .cons rfl rfl (htext.append (.cons feed_double_quote rfl (.nil _)))

/-- Where an inert text starts no expansion it has no dollar sign. -/
theorem dollar_notMem_of_startsNone (h : ∀ c ∈ text, IsInert c)
    (hquiet : startsNone ⟨tokens, some parts, .double⟩ text = true) : '$' ∉ text := by
  rw [← flatMap_doubleQuotedChar_eq_self h] at hquiet
  exact fun hmem => (plain_of_startsNone hquiet _ hmem).1 rfl

end

/-- The line is read as these tokens and no expansion starts. -/
structure IsScript (line : List Char) (tokens : List Token) : Prop where
  tokens : tokens? line = some tokens
  quiet : Reader.start.startsNone line = true

/-- A line that is read to a finished reader is a script. -/
theorem IsScript.of_reads {line : List Char} {r : Reader} {tokens : List Token}
    (h : Reads start line r) (hfinish : r.finish = some tokens) : IsScript line tokens :=
  ⟨(congrArg finish h.reader).trans hfinish, h.quiet⟩

namespace ObjectRequest

/-- What `qsh` reads before the command for the system. -/
theorem reads_system :
    Reads start "system ".toList ⟨[literalToken "system".toList], none, .plain⟩ :=
  ⟨by decide, by decide⟩

/-- What `qsh` reads between the two quoted texts. -/
theorem reads_cat (tokens : List Token) (parts : List Part) :
    Reads ⟨tokens, some parts, .plain⟩ " && cat ".toList
      ⟨literalToken "cat".toList :: .operator "&&".toList :: .word parts.reverse :: tokens, none,
        .plain⟩ :=
  ⟨rfl, rfl⟩

/-- The fixed characters and those of valid names are inert. -/
theorem allChars_isInert {name : String} (h : ObjectName.IsValid name.toList) :
    AllChars IsInert name :=
  fun c hc => isInert_of_isNameChar (h.plain c hc)

theorem ne_dollar_of_isFixedChar (c : Char) (h : isFixedChar c = true) : c ≠ '$' := by
  rintro rfl
  exact absurd h (by decide)

theorem allChars_ne_iff {c : Char} {text : String} : AllChars (· ≠ c) text ↔ c ∉ text.toList :=
  ⟨fun h hc => h c hc rfl, fun h _ hd hdc => h (hdc ▸ hd)⟩

theorem toList_script_of_printed_eq_none {r : ObjectRequest} (h : r.printed = none) :
    r.script.toList = "system ".toList ++ '"' :: (r.systemText.toList ++ ['"']) := by
  simp [script, h]

theorem toList_script_of_printed_eq_some {r : ObjectRequest} {path : String}
    (h : r.printed = some path) :
    r.script.toList = "system ".toList ++ '"' :: (r.systemText.toList ++ ['"']) ++
      (" && cat ".toList ++ '"' :: (path.toList ++ ['"'])) := by
  simp [script, h]

/-- With inert texts and no dollar sign in them the script is read as intended. -/
theorem isScript_of_inert {r : ObjectRequest} (htext : AllChars IsInert r.systemText)
    (hdollar : '$' ∉ r.systemText.toList)
    (hprinted : ∀ path ∈ r.printed, AllChars IsInert path ∧ '$' ∉ path.toList) :
    IsScript r.script.toList r.tokens := by
  have hread := reads_system.append (reads_inert htext hdollar)
  cases hr : r.printed with
  | none =>
    rw [toList_script_of_printed_eq_none hr]
    refine .of_reads hread ?_
    simp [finish, endWord, tokens, hr, literalToken]
  | some path =>
    obtain ⟨hpath, hquiet⟩ := hprinted path hr
    rw [toList_script_of_printed_eq_some hr]
    refine .of_reads (hread.append ((reads_cat _ _).append (reads_inert hpath hquiet))) ?_
    simp [finish, endWord, tokens, hr, literalToken]

/-- A script that starts no expansion has no dollar sign in the command for the system. -/
theorem dollar_notMem_of_isScript {r : ObjectRequest} {tokens : List Token}
    (htext : AllChars IsInert r.systemText) (h : IsScript r.script.toList tokens) :
    '$' ∉ r.systemText.toList := by
  have hopening : Reads start ("system ".toList ++ ['"'])
      ⟨[literalToken "system".toList], some [], .double⟩ :=
    reads_system.append (.cons rfl rfl (.nil _))
  have hsplit : ∃ rest, r.script.toList =
      ("system ".toList ++ ['"']) ++ (r.systemText.toList ++ rest) :=
    ⟨_, by simp only [script, String.toList_append, List.append_assoc]; rfl⟩
  obtain ⟨rest, hrest⟩ := hsplit
  have hquiet := h.quiet
  rw [hrest] at hquiet
  have hbehind := hopening.startsNone_append hquiet
  rw [Reader.startsNone_append, Bool.and_eq_true] at hbehind
  exact dollar_notMem_of_startsNone htext hbehind.1

/-- The script is read as intended exactly when no name holds a dollar sign. -/
theorem isScript_iff {r : ObjectRequest} (h : ∀ n ∈ r.names, ObjectName.IsValid n.2.toList) :
    IsScript r.script.toList r.tokens ↔ ∀ n ∈ r.names, '$' ∉ n.2.toList := by
  have hinert : ∀ n ∈ r.names, AllChars IsInert n.2 := fun n hn => allChars_isInert (h n hn)
  have htext : AllChars IsInert r.systemText :=
    (allChars_systemText_iff (fun _ => isInert_of_isFixedChar) r).2 hinert
  have hdollar : '$' ∉ r.systemText.toList ↔ ∀ n ∈ r.names, '$' ∉ n.2.toList := by
    simpa only [allChars_ne_iff] using allChars_systemText_iff ne_dollar_of_isFixedChar r
  constructor
  · exact fun hscript => hdollar.1 (dollar_notMem_of_isScript htext hscript)
  · intro hnames
    refine isScript_of_inert htext (hdollar.2 hnames) fun path hpath => ⟨?_, ?_⟩
    · exact allChars_of_mem_printed (fun _ => isInert_of_isFixedChar) hinert path hpath
    · have hne : ∀ n ∈ r.names, AllChars (· ≠ '$') n.2 :=
        fun n hn => allChars_ne_iff.2 (hnames n hn)
      exact allChars_ne_iff.1 (allChars_of_mem_printed ne_dollar_of_isFixedChar hne path hpath)

end ObjectRequest

/-! ## Both readings -/

/-- **Which names reach the system.** For valid names there is a command, and the shell of the host
hands `qsh` one script. `qsh` reads it as intended, the command for the system as one argument with
the names as they are and the stream file as one argument of `cat`, without an expansion, exactly
when no name holds a dollar sign. -/
theorem names_arrive_iff (r : ObjectRequest)
    (h : ∀ n ∈ r.names, ObjectName.validate n.1 n.2 = .ok ()) :
    ∃ command script, r.command = .ok command ∧
      IsCommand command.toList ["qsh".toList, "-c".toList, script] ∧
      (IsScript script r.tokens ↔ ∀ n ∈ r.names, '$' ∉ n.2.toList) :=
  ⟨qshCommand r.script, r.script.toList, ObjectRequest.command_eq_ok h,
    isCommand_qshCommand r.script,
    ObjectRequest.isScript_iff fun n hn => ObjectName.validate_eq_ok_iff.1 (h n hn)⟩

/-- A source member with plain names is read as intended. -/
theorem plain_names_arrive :
    ∃ command script, readSourceCommand "AXA.PGMR" "QFUENTES" "SPVSPO" = .ok command ∧
      IsCommand command.toList ["qsh".toList, "-c".toList, script] ∧
      IsScript script (ObjectRequest.readSource "AXA.PGMR" "QFUENTES" "SPVSPO").tokens := by
  obtain ⟨command, script, hcommand, houter, hinner⟩ :=
    names_arrive_iff (.readSource "AXA.PGMR" "QFUENTES" "SPVSPO") (by decide)
  exact ⟨command, script, hcommand, houter, hinner.2 (by decide)⟩

/-- A valid name with a dollar sign does not arrive: the value of a parameter takes the place of
its end. -/
theorem dollar_name_is_expanded :
    (∀ n ∈ (ObjectRequest.fileMembers "A$B" "F" "O").names,
        ObjectName.validate n.1 n.2 = .ok ()) ∧
      ∃ command script, (ObjectRequest.fileMembers "A$B" "F" "O").command = .ok command ∧
        IsCommand command.toList ["qsh".toList, "-c".toList, script] ∧
        tokens? script = some [literalToken "system".toList,
          .word ("DSPFD FILE(A".toList.map .char ++ .parameter ['B'] true ::
            "/F) TYPE(*MBRLIST) OUTPUT(*OUTFILE) OUTFILE(O/MBRLIST)".toList.map .char)] ∧
        ¬ IsScript script (ObjectRequest.fileMembers "A$B" "F" "O").tokens := by
  have hnames : ∀ n ∈ (ObjectRequest.fileMembers "A$B" "F" "O").names,
      ObjectName.validate n.1 n.2 = .ok () := by decide
  refine ⟨hnames, qshCommand _, _, ObjectRequest.command_eq_ok hnames, isCommand_qshCommand _,
    by decide +kernel, ?_⟩
  rw [ObjectRequest.isScript_iff fun n hn => ObjectName.validate_eq_ok_iff.1 (hnames n hn)]
  decide

end ProcedureCatalog.Host
