/-
# Which commands are sent

Five operations put names into the commands that they send. They are run here with a runner that
records what it is sent and gives any reply to it, also one that depends on what was sent before.

* `Replies`, `recording`, `traced` : the recorded run of an operation.
* `NamedOperation` : the operations, each with its names and the commands that are built for it.
* `IsFirstRejection` : the fault of the first name that is refused.
* `Sends` : commands sent one after the other until one fails.
* `NamedOperation.exists_perform_eq` : an operation on valid names sends its commands.
* `NamedOperation.sent_commands` : what any operation sends and answers.
-/
import ProcedureCatalog.Host.Session
import ProcedureCatalog.Proofs.Host.NamesInCommands

namespace ProcedureCatalog.Host

variable {α β : Type}

/-! ## Recorded runs -/

/-- A reply to each command, given the commands that were sent before it. -/
abbrev Replies := List String → String → Except RemoteError String

/-- The runner that records each command that it is sent and gives the reply to it. -/
def recording (replies : Replies) : Runner (StateM (List String)) :=
  fun command => ExceptT.mk fun sent => (replies sent command, sent ++ [command])

/-- The result of an operation after some commands were sent, and what has been sent then. -/
def traced (x : ExceptT RemoteError (StateM (List String)) α) (sent : List String) :
    Except RemoteError α × List String :=
  x.run.run sent

section

variable {replies : Replies} {sent : List String}

theorem traced_recording (command : String) :
    traced (recording replies command) sent = (replies sent command, sent ++ [command]) := rfl

/-- A result that is there already is given without sending anything. -/
theorem traced_settled (result : Except RemoteError α) :
    traced (Session.settled result) sent = (result, sent) := rfl

/-- What comes after an operation is done if that succeeds. -/
theorem traced_bind (x : ExceptT RemoteError (StateM (List String)) α)
    (f : α → ExceptT RemoteError (StateM (List String)) β) :
    traced (x >>= f) sent =
      match traced x sent with
      | (.ok a, sent) => traced (f a) sent
      | (.error e, sent) => (.error e, sent) := by
  rcases hx : traced x sent with ⟨result, sent'⟩
  have hrun : x.run.run sent = (result, sent') := hx
  unfold traced
  rw [ExceptT.run_bind, StateT.run_bind, hrun]
  cases result with
  | error e => rfl
  | ok a => rfl

theorem traced_map (f : α → β) (x : ExceptT RemoteError (StateM (List String)) α) :
    traced (f <$> x) sent = ((traced x sent).1.map f, (traced x sent).2) := by
  rw [map_eq_pure_bind, traced_bind]
  rcases traced x sent with ⟨result, sent'⟩
  cases result with
  | error e => rfl
  | ok a => rfl

end

/-! ## Commands in a row -/

/-- Commands are sent in order as long as they succeed. The outcome is the first error, or else the
output of the last command. -/
inductive Sends (replies : Replies) :
    List String → List String → Except RemoteError String → List String → Prop
  | last {sent : List String} {command : String} :
    Sends replies sent [command] (replies sent command) (sent ++ [command])
  | failed {sent rest : List String} {command : String} {e : RemoteError} :
    replies sent command = .error e →
    Sends replies sent (command :: rest) (.error e) (sent ++ [command])
  | succeeded {sent rest sent' : List String} {command output : String}
      {outcome : Except RemoteError String} :
    replies sent command = .ok output →
    Sends replies (sent ++ [command]) rest outcome sent' →
    Sends replies sent (command :: rest) outcome sent'

section

variable {replies : Replies} {sent commands : List String}

/-- Sends commands in order and gives the output of the last one. -/
def sendAll {m : Type → Type} [Monad m] (run : Runner m) :
    List String → ExceptT RemoteError m String
  | [] => pure ""
  | [command] => run command
  | command :: rest => do
    let _ ← run command
    sendAll run rest

/-- A recorded run of commands sends them until one fails. -/
theorem sends_sendAll (hne : commands ≠ []) :
    Sends replies sent commands (traced (sendAll (recording replies) commands) sent).1
      (traced (sendAll (recording replies) commands) sent).2 := by
  induction commands generalizing sent with
  | nil => exact absurd rfl hne
  | cons command rest ih =>
    cases rest with
    | nil => exact .last
    | cons next rest =>
      rw [sendAll, traced_bind, traced_recording]
      · cases hreply : replies sent command with
        | error e => exact .failed hreply
        | ok output => exact .succeeded hreply (ih (List.cons_ne_nil next rest))
      · simp

end

/-! ## Checked names -/

/-- The fault of the first name that is refused. -/
inductive IsFirstRejection : List (ObjectKind × String) → NameError → Prop
  | here {kind : ObjectKind} {name : String} {rest : List (ObjectKind × String)} {e : NameError} :
    ObjectName.validate kind name = .error e → IsFirstRejection ((kind, name) :: rest) e
  | later {kind : ObjectKind} {name : String} {rest : List (ObjectKind × String)}
      {e : NameError} :
    ObjectName.validate kind name = .ok () → IsFirstRejection rest e →
    IsFirstRejection ((kind, name) :: rest) e

/-- A result that is given only if the names are valid; they are checked in order. -/
def checked (names : List (ObjectKind × String)) (result : Except RemoteError α) :
    Except RemoteError α :=
  match names with
  | [] => result
  | (kind, name) :: rest => do
    validName kind name
    checked rest result

section

variable {names : List (ObjectKind × String)} {result : Except RemoteError α} {e : NameError}

/-- If a name is refused, there is a first one. -/
theorem exists_isFirstRejection (h : ∃ n ∈ names, ObjectName.validate n.1 n.2 ≠ .ok ()) :
    ∃ e, IsFirstRejection names e := by
  induction names with
  | nil => simp at h
  | cons n rest ih =>
    cases hname : ObjectName.validate n.1 n.2 with
    | error e => exact ⟨e, .here hname⟩
    | ok =>
      rw [List.exists_mem_cons_iff] at h
      obtain ⟨e, hrest⟩ := ih (h.resolve_left fun hne => hne hname)
      exact ⟨e, .later hname hrest⟩

theorem validName_eq_error {kind : ObjectKind} {name : String}
    (h : ObjectName.validate kind name = .error e) :
    validName kind name = .error (.invalidName e) := by
  rw [validName, h]
  rfl

/-- The first name that is refused decides. -/
theorem IsFirstRejection.checked_eq_error (h : IsFirstRejection names e) :
    checked names result = .error (.invalidName e) := by
  induction h with
  | here hname =>
    rw [checked, validName_eq_error hname]
    rfl
  | later hname _ ih =>
    rw [checked, validName_eq_ok hname]
    exact ih

theorem checked_eq_self (h : ∀ n ∈ names, ObjectName.validate n.1 n.2 = .ok ()) :
    checked names result = result := by
  induction names with
  | nil => rfl
  | cons n rest ih =>
    obtain ⟨hname, hrest⟩ := List.forall_mem_cons.1 h
    rw [checked, validName_eq_ok hname]
    exact ih hrest

end

/-! ## Operations on names -/

/-- An operation that puts names into the commands it sends, with the type of its answer. -/
inductive NamedOperation : Type → Type
  | request (r : ObjectRequest) : NamedOperation String
  | exportSymbols (library program : String) : NamedOperation (List String)

/-- The commands that fill an output file and read it. -/
def OutfileQuery.commands (q : OutfileQuery) : Except RemoteError (List String) :=
  (db2Command q.sql).map fun select => [q.command, select]

namespace NamedOperation

/-- The names, in the order in which they are given, with what they refer to. -/
def names : NamedOperation α → List (ObjectKind × String)
  | request r => r.names
  | exportSymbols library program => [(.library, library), (.object, program)]

/-- The commands that are built for an operation. -/
def commands : NamedOperation α → Except RemoteError (List String)
  | request (.fileMembers library file outputLibrary) =>
    fileMembers library file outputLibrary >>= OutfileQuery.commands
  | request (.databaseRelations library file outputLibrary) =>
    databaseRelations library file outputLibrary >>= OutfileQuery.commands
  | request (.programReferences library program outputLibrary) =>
    programReferences library program outputLibrary >>= OutfileQuery.commands
  | request (.readSource library file member) =>
    (readSourceCommand library file member).map fun command => [command]
  | exportSymbols library program =>
    (db2Command (exportSymbolsSql library program)).map fun select => [select]

/-- The operation with a runner. -/
def perform {m : Type → Type} [Monad m] (run : Runner m) :
    NamedOperation α → ExceptT RemoteError m α
  | request (.fileMembers library file outputLibrary) =>
    Session.listFileMembers run library file outputLibrary
  | request (.databaseRelations library file outputLibrary) =>
    Session.tableDependents run library file outputLibrary
  | request (.programReferences library program outputLibrary) =>
    Session.listProgramReferences run library program outputLibrary
  | request (.readSource library file member) =>
    Session.readSourceMember run library file member
  | exportSymbols library program => Session.exportSymbols run library program

/-- What an operation makes of the output of its last command. -/
def answer : NamedOperation α → String → α
  | request _ => id
  | exportSymbols _ program => fun listing => ExportListing.symbols listing program

end NamedOperation

/-! ## Operations with any runner -/

/-- A text that starts with one that is not blank is not blank. -/
theorem allBlank_append {first second : String} (h : Text.allBlank first.toList = false) :
    Text.allBlank (first ++ second).toList = false := by
  unfold Text.allBlank at h ⊢
  rw [String.toList_append, List.all_append, h, Bool.false_and]

section

variable {m : Type → Type} [Monad m] [LawfulMonad m] (run : Runner m)
  {names : List (ObjectKind × String)} {e : NameError} {q : OutfileQuery}

theorem settled_ok_bind (a : α) (f : α → ExceptT RemoteError m β) :
    (Session.settled (.ok a) >>= f) = f a :=
  ExceptT.ext (pure_bind _ _)

theorem settled_error_bind (e : RemoteError) (f : α → ExceptT RemoteError m β) :
    (Session.settled (.error e) >>= f) = Session.settled (.error e) :=
  ExceptT.ext (pure_bind _ _)

/-- Results that are there one after the other. -/
theorem settled_bind (x : Except RemoteError α) (f : α → Except RemoteError β) :
    (Session.settled (x >>= f) : ExceptT RemoteError m β) =
      (Session.settled x >>= fun a => Session.settled (f a)) := by
  cases x with
  | error e => rw [settled_error_bind]; rfl
  | ok a => rw [settled_ok_bind]; rfl

/-- After names of which one is refused nothing is done. -/
theorem IsFirstRejection.settled_checked_bind (h : IsFirstRejection names e)
    (result : Except RemoteError α) (f : α → ExceptT RemoteError m β) :
    (Session.settled (checked names result) >>= f) = Session.settled (.error (.invalidName e)) := by
  rw [h.checked_eq_error, settled_error_bind]

theorem query_of_not_blank {sql : String} (h : Text.allBlank sql.toList = false) :
    Session.query run sql = run (db2Script (Text.trimmed sql)) := by
  rw [Session.query, db2Command_eq_ok h, settled_ok_bind]

/-- On valid names the two commands for an output file are sent one after the other. -/
theorem exists_outfile_checked_eq (hnames : ∀ n ∈ names, ObjectName.validate n.1 n.2 = .ok ())
    (hsql : Text.allBlank q.sql.toList = false) :
    ∃ commands, (checked names (.ok q) >>= OutfileQuery.commands) = .ok commands ∧
      commands ≠ [] ∧
      Session.outfile run (checked names (.ok q)) = id <$> sendAll run commands := by
  rw [checked_eq_self hnames]
  refine ⟨[q.command, db2Script (Text.trimmed q.sql)], ?_, List.cons_ne_nil _ _, ?_⟩
  · simp only [bind, Except.bind]
    rw [OutfileQuery.commands, db2Command_eq_ok hsql]
    rfl
  · rw [id_map, Session.outfile, settled_ok_bind, query_of_not_blank run hsql]
    rfl

/-- The names of a service program are checked one after the other. -/
theorem exportSymbols_eq (library program : String) :
    Session.exportSymbols run library program =
      (Session.settled (checked [(.library, library), (.object, program)] (.ok ())) >>= fun _ =>
        (fun listing => ExportListing.symbols listing program) <$>
          Session.query run (exportSymbolsSql library program)) := by
  have hpair : checked [(.library, library), (.object, program)] (.ok ()) =
      (validName .library library >>= fun _ => validName .object program) :=
    congrArg (validName .library library >>= ·) (funext fun _ => bind_pure _)
  rw [hpair, settled_bind, bind_assoc]
  rfl

end

namespace NamedOperation

variable {m : Type → Type} [Monad m] [LawfulMonad m] (run : Runner m)

/-- An operation on names of which one is refused does nothing but report the first of those. -/
theorem perform_of_isFirstRejection {op : NamedOperation α} {e : NameError}
    (h : IsFirstRejection op.names e) :
    op.perform run = Session.settled (.error (.invalidName e)) := by
  cases op with
  | request r => cases r <;> exact h.settled_checked_bind _ _
  | exportSymbols library program =>
    rw [perform, exportSymbols_eq]
    exact h.settled_checked_bind _ _

/-- An operation on valid names sends the commands that are built for it. -/
theorem exists_perform_eq (op : NamedOperation α)
    (h : ∀ n ∈ op.names, ObjectName.validate n.1 n.2 = .ok ()) :
    ∃ commands, op.commands = .ok commands ∧ commands ≠ [] ∧
      op.perform run = op.answer <$> sendAll run commands := by
  cases op with
  | request r =>
    cases r with
    | fileMembers library file outputLibrary =>
      exact exists_outfile_checked_eq run h (allBlank_append (allBlank_append (by decide)))
    | databaseRelations library file outputLibrary =>
      exact exists_outfile_checked_eq run h (allBlank_append (allBlank_append (by decide)))
    | programReferences library program outputLibrary =>
      exact exists_outfile_checked_eq run h (allBlank_append (allBlank_append (by decide)))
    | readSource library file member =>
      obtain ⟨command, hbuilt⟩ : ∃ command, readSourceCommand library file member = .ok command :=
        ⟨_, checked_eq_self h⟩
      refine ⟨[command], ?_, List.cons_ne_nil _ _, ?_⟩
      · rw [commands, hbuilt]
        rfl
      · rw [perform, Session.readSourceMember, hbuilt, settled_ok_bind]
        exact (id_map _).symm
  | exportSymbols library program =>
    have hsql : Text.allBlank (exportSymbolsSql library program).toList = false :=
      allBlank_append (by decide)
    refine ⟨[db2Script (Text.trimmed (exportSymbolsSql library program))], ?_,
      List.cons_ne_nil _ _, ?_⟩
    · rw [commands, db2Command_eq_ok hsql]
      rfl
    · have hchecked : checked [(.library, library), (.object, program)] (.ok ()) = .ok () :=
        checked_eq_self h
      rw [perform, exportSymbols_eq, hchecked, settled_ok_bind, query_of_not_blank run hsql]
      rfl

/-! ## What is sent -/

/-- **Invalid names are never sent, and commands are sent until one fails.** If a name is refused,
the answer is the fault of the first such name, and no command is sent. Otherwise the commands that
are built for the operation are sent in order as long as they succeed. The first error is given as
it is, and if there is none, the answer is that to the output of the last command. -/
theorem sent_commands (replies : Replies) (sent : List String) (op : NamedOperation α) :
    ((∃ n ∈ op.names, ObjectName.validate n.1 n.2 ≠ .ok ()) →
        ∃ e, IsFirstRejection op.names e ∧
          traced (op.perform (recording replies)) sent = (.error (.invalidName e), sent)) ∧
      ((∀ n ∈ op.names, ObjectName.validate n.1 n.2 = .ok ()) →
        ∃ commands outcome sent', op.commands = .ok commands ∧
          Sends replies sent commands outcome sent' ∧
          traced (op.perform (recording replies)) sent = (outcome.map op.answer, sent')) := by
  constructor
  · intro h
    obtain ⟨e, he⟩ := exists_isFirstRejection h
    exact ⟨e, he, by rw [perform_of_isFirstRejection _ he, traced_settled]⟩
  · intro h
    obtain ⟨commands, hcommands, hne, hperform⟩ := exists_perform_eq (recording replies) op h
    exact ⟨commands, _, _, hcommands, sends_sendAll hne, by rw [hperform, traced_map]⟩

/-- Of two invalid names the first is reported and nothing is sent. With valid names the statement
is not sent after a command that failed, and otherwise its output is the answer. -/
theorem sent_commands_of_file_members :
    traced (perform (recording fun _ _ => .ok "") (request (.fileMembers "AXA" "Q-F" ""))) [] =
        (.error (.invalidName (.invalidCharacter .file "Q-F" '-')), []) ∧
      ∃ command select, (request (.fileMembers "AXA" "QF" "O")).commands = .ok [command, select] ∧
        traced (perform (recording fun _ _ => .error (.timeout 5))
            (request (.fileMembers "AXA" "QF" "O"))) [] = (.error (.timeout 5), [command]) ∧
        traced (perform (recording fun sent _ => .ok (toString sent.length))
            (request (.fileMembers "AXA" "QF" "O"))) [] = (.ok "1", [command, select]) := by
  refine ⟨?_, _, _, rfl, ?_, ?_⟩
  · obtain ⟨e, he, htraced⟩ :=
      (sent_commands (fun _ _ => .ok "") [] (request (.fileMembers "AXA" "Q-F" ""))).1 (by decide)
    rw [htraced]
    cases he with
    | here hname => nomatch hname
    | later _ he =>
      cases he with
      | here hname =>
        obtain rfl := Except.error.inj hname
        rfl
      | later hname => nomatch hname
  · obtain ⟨commands, outcome, sent', hcommands, hsends, htraced⟩ :=
      (sent_commands (fun _ _ => .error (.timeout 5)) [] (request (.fileMembers "AXA" "QF" "O"))).2
        (by decide)
    rw [htraced]
    obtain rfl := Except.ok.inj hcommands
    cases hsends with
    | failed hreply =>
      obtain rfl := Except.error.inj hreply
      rfl
    | succeeded hreply => nomatch hreply
  · obtain ⟨commands, outcome, sent', hcommands, hsends, htraced⟩ :=
      (sent_commands (fun sent _ => .ok (toString sent.length)) []
        (request (.fileMembers "AXA" "QF" "O"))).2 (by decide)
    rw [htraced]
    obtain rfl := Except.ok.inj hcommands
    cases hsends with
    | failed hreply => nomatch hreply
    | succeeded _ hrest =>
      cases hrest with
      | last => rfl
      | failed hreply => nomatch hreply
      | succeeded _ hnone => nomatch hnone

end NamedOperation

end ProcedureCatalog.Host
