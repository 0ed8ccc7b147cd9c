/-
# Settings saved and loaded

Settings that are saved are loaded as they were. A document from which sections or fields are
removed gives the settings with the defaults in their place.

* `optionalTextOfNode?_ofText`, `textOfNode?_ofText`, `numberOfNode?_ofNumber` : one field.
* `lookup_kept`, `fieldOr?_kept` : a field that is kept or removed.
* `WritesMapping` : how a mapping can be written so that its fields are read.
* `HostSettings.ofNode?_kept`, `CatalogSettings.ofNode?_kept`, `Settings.ofDocument?_kept` : the
  sections and the whole document.
* `Settings.load_saved` : the file.
-/
import ProcedureCatalog.Proofs.Text.Decoding
import ProcedureCatalog.Proofs.Yaml.WrittenDocuments
import ProcedureCatalog.Settings.File

namespace ProcedureCatalog

open Yaml

/-! ## Fields -/

/-- A text is there when it is written, even an empty one. -/
theorem optionalTextOfNode?_ofText (text : String) :
    optionalTextOfNode? (.ofText text) = some (some text) := by
  unfold Node.ofText
  cases hstyle : styleOf text with
  | plain =>
    have hreads := readsAsText_of_styleOf hstyle
    simp only [readsAsText, Bool.not_eq_true', Bool.or_eq_false_iff] at hreads
    obtain ⟨⟨⟨⟨⟨hempty, hnull⟩, -⟩, -⟩, -⟩, -⟩ := hreads
    rw [optionalTextOfNode?, hempty, hnull]
    rfl
  | _ => rfl

theorem textOfNode?_ofText (text : String) : textOfNode? (.ofText text) = some text := rfl

theorem numberOfNode?_ofNumber {bound n : Nat} (h : n < bound) :
    numberOfNode? bound (.ofNumber n) = some n := by
  rw [Node.ofNumber, numberOfNode?, unsigned?_toString, Option.filter_some, decide_eq_true h]
  rfl

/-! ## Removed fields -/

/-- The fields with a name that is kept. -/
def keptFields (keeps : String → Bool) (fields : Fields) : Fields :=
  fields.filter fun field => keeps field.1

/-- A field that is kept is found, and no other. -/
theorem lookup_kept (keeps : String → Bool) (fields : Fields) (name : String) :
    (keptFields keeps fields).lookup name = if keeps name then fields.lookup name else none := by
  induction fields with
  | nil => simp [keptFields]
  | cons field fields ih =>
    obtain ⟨first, node⟩ := field
    rw [keptFields] at ih ⊢
    rw [List.filter_cons, List.lookup_cons]
    by_cases hname : name = first
    · subst hname
      cases hkeeps : keeps name with
      | true => simp
      | false => simpa [hkeeps] using ih
    · have hother : (name == first) = false := beq_eq_false_iff_ne.2 hname
      rw [hother]
      split
      · rw [List.lookup_cons, hother]
        exact ih
      · exact ih

/-- A field that is kept is read as before; one that is removed has its default. -/
theorem fieldOr?_kept {α : Type} {fields : Fields} {read : Node → Option α} {name : String}
    {default value : α} (h : fieldOr? fields read name default = some value)
    (keeps : String → Bool) : fieldOr? (keptFields keeps fields) read name default =
      some (if keeps name then value else default) := by
  rw [fieldOr?, lookup_kept]
  split
  · exact h
  · rfl

section Fields

variable {fields : Fields} {name : String}

/-- A text that is not written is not set. -/
theorem fieldOr?_optional {text : Option String} (h : fields.lookup name = text.map .ofText) :
    fieldOr? fields optionalTextOfNode? name none = some text := by
  rw [fieldOr?, h]
  cases text with
  | none => rfl
  | some text => exact optionalTextOfNode?_ofText text

theorem fieldOr?_text {text : String} (h : fields.lookup name = some (.ofText text))
    (default : String) : fieldOr? fields textOfNode? name default = some text := by
  rw [fieldOr?, h]
  exact textOfNode?_ofText text

theorem fieldOr?_number {n bound : Nat} (h : fields.lookup name = some (.ofNumber n))
    (hn : n < bound) (default : Nat) :
    fieldOr? fields (numberOfNode? bound) name default = some n := by
  rw [fieldOr?, h]
  exact numberOfNode?_ofNumber hn

/-- The first field is found by its name. -/
theorem lookup_field (first wanted : String) (node : Node) (fields : Fields) :
    List.lookup wanted ((first, node) :: fields) =
      if wanted = first then some node else fields.lookup wanted := by
  rw [List.lookup_cons]
  by_cases hname : wanted = first
  · simp [hname]
  · rw [beq_eq_false_iff_ne.2 hname, if_neg hname]

/-- A field with a text is found if there is one. -/
theorem lookup_optionalField (name wanted : String) (text : Option String) :
    (optionalField name text).lookup wanted =
      if wanted = name then text.map .ofText else none := by
  cases text with
  | none => simp [optionalField]
  | some text => exact lookup_field name wanted (.ofText text) []

end Fields

/-! ## Mappings -/

/-- A way to write a mapping in which its fields are read. -/
structure WritesMapping (write : Fields → Node) : Prop where
  /-- No alias stands for the mapping. -/
  follow : ∀ (document : Document) (fields : Fields), document.follow (write fields) = write fields
  fields : ∀ {document : Document} {names : List String} {fields : Fields},
    (fields.map (·.1)).Sublist names → names.Nodup →
      (∀ field ∈ fields, document.follow field.2 = field.2) →
        fieldsOfNode? document names (write fields) = some fields

/-- A mapping of names is read as its fields. -/
theorem writesMapping_ofFields : WritesMapping .ofFields where
  follow _ _ := rfl
  fields := by
    intro document names fields hnames hnodup hfollow
    have hnamed : (namedPairs fields).mapM (fun pair =>
        (textOfNode? (document.follow pair.1)).map (·, document.follow pair.2)) = some fields := by
      clear hnames
      induction fields with
      | nil => rfl
      | cons field fields ih =>
        obtain ⟨name, node⟩ := field
        rw [List.forall_mem_cons] at hfollow
        have hfirst : ((textOfNode? (document.follow (.scalar .plain none name))).map
            (·, document.follow node)) = some (name, node) :=
          congrArg (fun node => some (name, node)) hfollow.1
        have hmore := ih hfollow.2
        rw [namedPairs] at hmore ⊢
        rw [List.map_cons, List.mapM_cons, hmore]
        change ((textOfNode? (document.follow (.scalar .plain none name))).map
            (·, document.follow node)).bind _ = _
        rw [hfirst]
        rfl
    have hall : (fields.filter fun field => names.contains field.1) = fields :=
      List.filter_eq_self.2 fun field hfield =>
        List.contains_iff_mem.2 (hnames.subset (List.mem_map_of_mem hfield))
    rw [fieldsOfNode?]
    change ((namedPairs fields).mapM fun pair =>
      (textOfNode? (document.follow pair.1)).map (·, document.follow pair.2)).bind _ = some fields
    rw [hnamed]
    change (if ((fields.filter fun field => names.contains field.1).map (·.1)).Nodup then
      some (fields.filter fun field => names.contains field.1) else none) = some fields
    rw [hall, if_pos (hnames.nodup hnodup)]

/-- So is a mapping of which nothing is written when it has no fields. -/
theorem writesMapping_blockNode : WritesMapping blockNode where
  follow document fields := by
    cases fields <;> rfl
  fields := by
    intro document names fields hnames hnodup hfollow
    cases fields with
    | nil => rfl
    | cons field fields => exact writesMapping_ofFields.fields hnames hnodup hfollow

/-! ## Sections -/

/-- The host's settings with the defaults of the fields that are not kept. -/
def HostSettings.keeping (s : HostSettings) (keeps : String → Bool) : HostSettings where
  host := if keeps "host" then s.host else default.host
  port := if keeps "port" then s.port else default.port
  user := if keeps "user" then s.user else default.user
  key := if keeps "key" then s.key else default.key
  passwordVariable := if keeps "password_env" then s.passwordVariable else default.passwordVariable
  timeout := if keeps "timeout_ms" then s.timeout else default.timeout

/-- The catalog's settings with the defaults of the fields that are not kept. -/
def CatalogSettings.keeping (s : CatalogSettings) (keeps : String → Bool) : CatalogSettings where
  path := if keeps "db_path" then s.path else default.path
  tablePrefix := if keeps "prefix" then s.tablePrefix else default.tablePrefix
  sourceFile := if keeps "source_file" then s.sourceFile else default.sourceFile

/-- Every field of the host's section is read as it was. -/
theorem HostSettings.fieldOr?_fields (s : HostSettings) (hport : s.port < portLimit)
    (htimeout : s.timeout < timeoutLimit) :
    fieldOr? s.fields optionalTextOfNode? "host" default.host = some s.host ∧
      fieldOr? s.fields (numberOfNode? portLimit) "port" default.port = some s.port ∧
      fieldOr? s.fields optionalTextOfNode? "user" default.user = some s.user ∧
      fieldOr? s.fields optionalTextOfNode? "key" default.key = some s.key ∧
      fieldOr? s.fields optionalTextOfNode? "password_env" default.passwordVariable =
        some s.passwordVariable ∧
      fieldOr? s.fields (numberOfNode? timeoutLimit) "timeout_ms" default.timeout =
        some s.timeout := by
  refine ⟨fieldOr?_optional ?_, fieldOr?_number ?_ hport _, fieldOr?_optional ?_,
    fieldOr?_optional ?_, fieldOr?_optional ?_, fieldOr?_number ?_ htimeout _⟩ <;>
    simp [HostSettings.fields, List.lookup_append, lookup_optionalField, lookup_field]

/-- The host's settings are read from the fields that are kept. -/
theorem HostSettings.ofNode?_kept {s : HostSettings} (hport : s.port < portLimit)
    (htimeout : s.timeout < timeoutLimit) (keeps : String → Bool) {document : Document}
    {node : Node} (h : fieldsOfNode? document
      ["host", "port", "user", "key", "password_env", "timeout_ms"] node =
        some (keptFields keeps s.fields)) :
    HostSettings.ofNode? document node = some (s.keeping keeps) := by
  obtain ⟨hhost, hportField, huser, hkey, hpassword, htimeoutField⟩ :=
    s.fieldOr?_fields hport htimeout
  rw [ofNode?, h]
  simp only [Option.bind_eq_bind, Option.bind_some, fieldOr?_kept hhost, fieldOr?_kept hportField,
    fieldOr?_kept huser, fieldOr?_kept hkey, fieldOr?_kept hpassword, fieldOr?_kept htimeoutField]
  rfl

/-- Every field of the catalog's section is read as it was. -/
theorem CatalogSettings.fieldOr?_fields (s : CatalogSettings) :
    fieldOr? s.fields textOfNode? "db_path" default.path = some s.path ∧
      fieldOr? s.fields textOfNode? "prefix" default.tablePrefix = some s.tablePrefix ∧
      fieldOr? s.fields textOfNode? "source_file" default.sourceFile = some s.sourceFile := by
  refine ⟨fieldOr?_text ?_ _, fieldOr?_text ?_ _, fieldOr?_text ?_ _⟩ <;>
    simp [CatalogSettings.fields, lookup_field]

/-- The catalog's settings are read from the fields that are kept. -/
theorem CatalogSettings.ofNode?_kept (s : CatalogSettings) (keeps : String → Bool)
    {document : Document} {node : Node}
    (h : fieldsOfNode? document ["db_path", "prefix", "source_file"] node =
      some (keptFields keeps s.fields)) :
    CatalogSettings.ofNode? document node = some (s.keeping keeps) := by
  obtain ⟨hpath, hprefix, hsource⟩ := s.fieldOr?_fields
  rw [ofNode?, h]
  simp only [Option.bind_eq_bind, Option.bind_some, fieldOr?_kept hpath, fieldOr?_kept hprefix,
    fieldOr?_kept hsource]
  rfl

/-! ## What is written -/

theorem isField_ofText {name : String} (h : Layout.IsName name.toList) (text : String) :
    IsField (name, .ofText text) :=
  .scalar h (fits_styleOf text)

theorem isField_ofNumber {name : String} (h : Layout.IsName name.toList) (n : Nat) :
    IsField (name, .ofNumber n) :=
  .scalar h (fits_toString n)

theorem isField_of_mem_optionalField {name : String} (h : Layout.IsName name.toList)
    (text : Option String) : ∀ field ∈ optionalField name text, IsField field := by
  cases text with
  | none => exact fun field hfield => absurd hfield List.not_mem_nil
  | some text => exact List.forall_mem_singleton.2 (isField_ofText h text)

/-- The names of sections and fields can be keys. -/
theorem isName_of_mem : ∀ name ∈ ["host", "catalog", "port", "user", "key", "password_env",
    "timeout_ms", "db_path", "prefix", "source_file"], Layout.IsName name.toList := by
  have hnames : ∀ name ∈ ["host", "catalog", "port", "user", "key", "password_env",
    "timeout_ms", "db_path", "prefix", "source_file"], name.toList ≠ [] ∧
      name.toList.all isKeyChar = true ∧ name.toList.length ≤ 1024 := by decide
  intro name hname
  obtain ⟨hne, hchars, hlength⟩ := hnames name hname
  exact ⟨hne, List.all_eq_true.1 hchars, hlength⟩

theorem HostSettings.isField_of_mem_fields (s : HostSettings) :
    ∀ field ∈ s.fields, IsField field := by
  simp only [HostSettings.fields, List.forall_mem_append, List.forall_mem_singleton]
  refine ⟨⟨⟨⟨⟨?_, ?_⟩, ?_⟩, ?_⟩, ?_⟩, ?_⟩
  · exact isField_of_mem_optionalField (isName_of_mem _ (by simp)) s.host
  · exact isField_ofNumber (isName_of_mem _ (by simp)) s.port
  · exact isField_of_mem_optionalField (isName_of_mem _ (by simp)) s.user
  · exact isField_of_mem_optionalField (isName_of_mem _ (by simp)) s.key
  · exact isField_of_mem_optionalField (isName_of_mem _ (by simp)) s.passwordVariable
  · exact isField_ofNumber (isName_of_mem _ (by simp)) s.timeout

theorem CatalogSettings.isField_of_mem_fields (s : CatalogSettings) :
    ∀ field ∈ s.fields, IsField field := by
  simp only [CatalogSettings.fields, List.forall_mem_cons, List.not_mem_nil, false_imp_iff,
    implies_true, and_true]
  exact ⟨isField_ofText (isName_of_mem _ (by simp)) s.path,
    isField_ofText (isName_of_mem _ (by simp)) s.tablePrefix,
    isField_ofText (isName_of_mem _ (by simp)) s.sourceFile⟩

theorem map_optionalField_sublist (name : String) (text : Option String) :
    ((optionalField name text).map (·.1)).Sublist [name] := by
  cases text with
  | none => exact List.nil_sublist _
  | some text => exact List.Sublist.refl _

/-- The names of the host's fields, each at most once. -/
theorem HostSettings.map_fields_sublist (s : HostSettings) : (s.fields.map (·.1)).Sublist
    ["host", "port", "user", "key", "password_env", "timeout_ms"] := by
  simp only [HostSettings.fields, List.map_append]
  exact (((((map_optionalField_sublist "host" s.host).append (List.Sublist.refl ["port"])).append
    (map_optionalField_sublist "user" s.user)).append
      (map_optionalField_sublist "key" s.key)).append
        (map_optionalField_sublist "password_env" s.passwordVariable)).append
          (List.Sublist.refl ["timeout_ms"])

theorem keptFields_sublist (keeps : String → Bool) (fields : Fields) :
    (keptFields keeps fields).Sublist fields :=
  List.filter_sublist

/-- No field is an alias. -/
theorem follow_of_isField {document : Document} {field : String × Node} (h : IsField field) :
    document.follow field.2 = field.2 := by
  cases h
  rfl

/-! ## Documents -/

/-- Which sections of a document are kept, and which fields of each section. -/
structure Kept where
  keepsSection : String → Bool
  /-- The name of a section, then that of a field. -/
  keepsField : String → String → Bool

/-- The sections that are kept, with the fields that are kept. -/
def Kept.sections (kept : Kept) (sections : List (String × Fields)) : List (String × Fields) :=
  (sections.filter fun entry => kept.keepsSection entry.1).map fun (name, fields) =>
    (name, keptFields (kept.keepsField name) fields)

/-- The settings with the defaults of what is not kept. -/
def Settings.keeping (s : Settings) (kept : Kept) : Settings where
  host := if kept.keepsSection "host" then s.host.keeping (kept.keepsField "host") else .default
  catalog :=
    if kept.keepsSection "catalog" then s.catalog.keeping (kept.keepsField "catalog") else .default

/-- Everything is kept. -/
def Kept.all : Kept := ⟨fun _ => true, fun _ _ => true⟩

theorem Settings.keeping_all (s : Settings) : s.keeping .all = s := rfl

theorem Kept.sections_all (sections : List (String × Fields)) :
    Kept.all.sections sections = sections := by
  simp [Kept.sections, Kept.all, keptFields]

/-- What is kept of settings can be written. -/
theorem Settings.isSection_of_mem_sections (s : Settings) (kept : Kept) :
    ∀ entry ∈ kept.sections s.sections, IsSection entry := by
  intro entry hentry
  obtain ⟨⟨name, fields⟩, hmem, rfl⟩ := List.mem_map.1 hentry
  have hsection := List.mem_of_mem_filter hmem
  simp only [Settings.sections, List.mem_cons, List.not_mem_nil, or_false, Prod.mk.injEq]
    at hsection
  rcases hsection with ⟨rfl, rfl⟩ | ⟨rfl, rfl⟩
  · exact ⟨isName_of_mem _ (by simp), fun field hfield =>
      s.host.isField_of_mem_fields field ((keptFields_sublist _ _).subset hfield)⟩
  · exact ⟨isName_of_mem _ (by simp), fun field hfield =>
      s.catalog.isField_of_mem_fields field ((keptFields_sublist _ _).subset hfield)⟩

/-- The nodes of the sections that are kept. -/
theorem Kept.map_sections (kept : Kept) (s : Settings) (write : Fields → Node) :
    ((kept.sections s.sections).map fun (name, fields) => (name, write fields)) =
      keptFields kept.keepsSection
        [("host", write (keptFields (kept.keepsField "host") s.host.fields)),
          ("catalog", write (keptFields (kept.keepsField "catalog") s.catalog.fields))] := by
  rw [Kept.sections, Settings.sections, keptFields, List.map_map]
  cases hhost : kept.keepsSection "host" <;> cases hcatalog : kept.keepsSection "catalog" <;>
    simp [hhost, hcatalog]

/-- The fields that are kept of fields that can be written are read, however they are written. -/
theorem WritesMapping.fieldsOfNode?_kept {write : Fields → Node} (hwrite : WritesMapping write)
    {document : Document} {names : List String} (hnodup : names.Nodup) {fields : Fields}
    (hnames : (fields.map (·.1)).Sublist names)
    (hfollow : ∀ field ∈ fields, document.follow field.2 = field.2) (keeps : String → Bool) :
    fieldsOfNode? document names (write (keptFields keeps fields)) =
      some (keptFields keeps fields) :=
  hwrite.fields (((keptFields_sublist keeps fields).map _).trans hnames) hnodup
    fun field hfield => hfollow field ((keptFields_sublist keeps fields).subset hfield)

/-- What is kept of settings is read from a document, however its mappings are written. -/
theorem Settings.ofDocument?_kept {s : Settings} (hport : s.host.port < portLimit)
    (htimeout : s.host.timeout < timeoutLimit) {write : Fields → Node}
    (hwrite : WritesMapping write) (kept : Kept) :
    Settings.ofDocument? ⟨write ((kept.sections s.sections).map fun (name, fields) =>
      (name, write fields)), []⟩ = some (s.keeping kept) := by
  rw [kept.map_sections s write]
  generalize hhostNode : write (keptFields (kept.keepsField "host") s.host.fields) = hostNode
  generalize hcatalogNode :
    write (keptFields (kept.keepsField "catalog") s.catalog.fields) = catalogNode
  generalize hroot : write (keptFields kept.keepsSection
    [("host", hostNode), ("catalog", catalogNode)]) = root
  have hsections : fieldsOfNode? ⟨root, []⟩ ["host", "catalog"] root =
      some (keptFields kept.keepsSection [("host", hostNode), ("catalog", catalogNode)]) := by
    rw [← hroot]
    have hnames : ["host", "catalog"].Nodup := by decide
    refine hwrite.fieldsOfNode?_kept hnames (List.Sublist.refl _) ?_ _
    simp [← hhostNode, ← hcatalogNode, hwrite.follow]
  have hhost : HostSettings.ofNode? ⟨root, []⟩ hostNode =
      some (s.host.keeping (kept.keepsField "host")) := by
    refine HostSettings.ofNode?_kept hport htimeout _ ?_
    rw [← hhostNode]
    exact hwrite.fieldsOfNode?_kept (by decide) s.host.map_fields_sublist (fun field hfield =>
      follow_of_isField (s.host.isField_of_mem_fields field hfield)) _
  have hcatalog : CatalogSettings.ofNode? ⟨root, []⟩ catalogNode =
      some (s.catalog.keeping (kept.keepsField "catalog")) := by
    refine CatalogSettings.ofNode?_kept _ _ ?_
    rw [← hcatalogNode]
    have hnames : ["db_path", "prefix", "source_file"].Nodup := by decide
    exact hwrite.fieldsOfNode?_kept hnames (List.Sublist.refl _) (fun field hfield =>
      follow_of_isField (s.catalog.isField_of_mem_fields field hfield)) _
  have hhostField : fieldOr? [("host", hostNode), ("catalog", catalogNode)]
      (HostSettings.ofNode? ⟨root, []⟩) "host" .default =
        some (s.host.keeping (kept.keepsField "host")) := hhost
  have hcatalogField : fieldOr? [("host", hostNode), ("catalog", catalogNode)]
      (CatalogSettings.ofNode? ⟨root, []⟩) "catalog" .default =
        some (s.catalog.keeping (kept.keepsField "catalog")) := hcatalog
  rw [Settings.ofDocument?, hsections]
  simp only [Option.bind_eq_bind, Option.bind_some, fieldOr?_kept hhostField,
    fieldOr?_kept hcatalogField]
  rfl

/-- **Settings that are saved are loaded as they were. Where fields or whole sections are removed
from the document, their defaults are loaded.** The first two statements are about the file, so they
rest on the writer and the reader of documents. The last one is the round trip of the mapping alone:
it goes from the sections to the settings without a text, and depends on neither of the two. -/
theorem Settings.load_saved (s : Settings) (hport : s.host.port < portLimit)
    (htimeout : s.host.timeout < timeoutLimit) :
    Settings.load (.ok (Text.encodeUtf8 s.toYaml.toList)) = .ok s ∧
      ∀ kept : Kept,
        Settings.load (.ok (Text.encodeUtf8 (render (kept.sections s.sections)).toList)) =
          .ok (s.keeping kept) ∧
        Settings.ofDocument? (.ofSections (kept.sections s.sections)) = some (s.keeping kept) := by
  have hload : ∀ kept : Kept,
      Settings.load (.ok (Text.encodeUtf8 (render (kept.sections s.sections)).toList)) =
        .ok (s.keeping kept) := by
    intro kept
    rw [Settings.load, Settings.ofBytes?, decodeFile?_encodeUtf8, Option.bind_some,
      String.ofList_toList, Settings.ofYaml?, parse?_render (s.isSection_of_mem_sections kept),
      Option.bind_some, writtenDocument,
      Settings.ofDocument?_kept hport htimeout writesMapping_blockNode kept]
    rfl
  refine ⟨?_, fun kept => ⟨hload kept, ?_⟩⟩
  · have hall := hload .all
    rwa [Kept.sections_all, Settings.keeping_all] at hall
  · exact Settings.ofDocument?_kept hport htimeout writesMapping_ofFields kept

/-- No host, an empty user, a key that looks like no value, and the greatest numbers. -/
def Settings.sparse : Settings :=
  ⟨⟨none, 65535, some "", some "~", some " #", 18446744073709551615⟩, ⟨"a\n", "", "k: v"⟩⟩

/-- Without the port and the catalog, the defaults of these are loaded. -/
theorem Settings.load_saved_sparse :
    (Settings.sparse.host.port < portLimit ∧ Settings.sparse.host.timeout < timeoutLimit) ∧
      Settings.load (.ok (Text.encodeUtf8 Settings.sparse.toYaml.toList)) = .ok .sparse ∧
      Settings.load (.ok (Text.encodeUtf8 (render (Kept.sections
        ⟨(· != "catalog"), fun _ field => field != "port"⟩ Settings.sparse.sections)).toList)) =
          .ok ⟨{ Settings.sparse.host with port := 22 }, .default⟩ :=
  have hport : Settings.sparse.host.port < portLimit := by decide
  have htimeout : Settings.sparse.host.timeout < timeoutLimit := by decide
  have hsaved := Settings.load_saved .sparse hport htimeout
  ⟨⟨hport, htimeout⟩, hsaved.1, (hsaved.2 ⟨(· != "catalog"), fun _ field => field != "port"⟩).1⟩

end ProcedureCatalog
