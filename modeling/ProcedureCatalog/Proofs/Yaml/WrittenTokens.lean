/-
# The tokens of what is written

The tokens of sections with fields, as they are written.

* `IsField`, `IsSection` : what can be written.
* `reaches_fields`, `reaches_section` : the reader goes over the lines of fields and of a section.
* `tokens?_render` : the tokens of all sections.
-/
import ProcedureCatalog.Proofs.Yaml.BlockLayout

namespace ProcedureCatalog.Yaml

/-! ## Fields -/

/-- What is written for a scalar ends with the end of a line. -/
theorem renderScalar_eq_concat {style : ScalarStyle} {text : String}
    (h : Fits style text.toList) (indent : Nat) :
    ∃ line b, renderScalar indent style text = line ++ [b] ∧ isBreak b = true := by
  have hfeed : isBreak '\n' = true := by decide
  unfold renderScalar
  generalize text.toList = cs at h ⊢
  cases h with
  | plain => exact ⟨cs, '\n', rfl, hfeed⟩
  | singleQuoted => exact ⟨_, '\n', rfl, hfeed⟩
  | doubleQuoted => exact ⟨'"' :: cs.flatMap doubleQuotedChar ++ ['"'], '\n', by simp, hfeed⟩
  | literal hne =>
    obtain ⟨before, last, rfl⟩ := (List.eq_nil_or_concat cs).resolve_left hne
    change ∃ line b, literal indent _ = line ++ [b] ∧ isBreak b = true
    rw [List.concat_eq_append, literal, List.getLast?_concat, Option.any_some]
    by_cases hlast : isBreak last = true
    · rw [if_pos hlast, indentLines_append_breaks (by simpa using hlast), List.append_nil,
        ← List.append_assoc]
      exact ⟨_, last, rfl, hlast⟩
    · rw [if_neg hlast]
      exact ⟨_, '\n', rfl, hfeed⟩

theorem column_behind_renderScalar {style : ScalarStyle} {text : String}
    (h : Fits style text.toList) (indent : Nat) (p : Position) :
    (p.behind (renderScalar indent style text)).column = 0 := by
  obtain ⟨line, b, heq, hb⟩ := renderScalar_eq_concat h indent
  rw [heq, Position.behind_append]
  exact Position.column_past_of_isBreak hb _

/-- A field that can be written: a name with a scalar in a style that fits it. -/
inductive IsField : String × Node → Prop
  | scalar {name : String} {style : ScalarStyle} {text : String}
      (isName : Layout.IsName name.toList) (fits : Fits style text.toList) :
      IsField (name, .scalar style none text)

/-- The tokens of a field. -/
def fieldTokens : String × Node → List Token
  | (name, .scalar style _ text) =>
    [.key, .scalar .plain name.toList, .value, .scalar style text.toList]
  | _ => []

/-- The line of a field. -/
theorem renderFields_cons (name : String) (style : ScalarStyle) (tag : Option String)
    (text : String) (fields : Fields) : renderFields ((name, .scalar style tag text) :: fields) =
      spaces 2 ++ (name.toList ++ ':' :: ' ' :: (renderScalar 4 style text ++
        renderFields fields)) := by
  simp [renderFields]

/-- Behind a field, a line starts. -/
theorem column_behind_field (gap name : List Char) {style : ScalarStyle} {text : String}
    (h : Fits style text.toList) (p : Position) :
    (p.behind (gap ++ (name ++ ':' :: ' ' :: renderScalar 4 style text))).column = 0 := by
  simp only [Position.behind_append, Position.behind_cons]
  exact column_behind_renderScalar h 4 _

/-- What stands behind a field: the next field or what follows the fields. -/
theorem exists_spaces_renderFields {fields : Fields} (h : ∀ field ∈ fields, IsField field)
    {tail : List Char} (htail : Layout.StartsToken tail) : ∃ count rest,
      renderFields fields ++ tail = spaces count ++ rest ∧ count < 3 ∧
        Layout.StartsToken rest := by
  cases fields with
  | nil => exact ⟨0, tail, rfl, by decide, htail⟩
  | cons field fields =>
    obtain @⟨name, style, text, hname, hfits⟩ := h field List.mem_cons_self
    rw [renderFields_cons, List.append_assoc, List.append_assoc]
    exact ⟨2, _, rfl, by decide, hname.startsToken _⟩

namespace Layout

variable (tokens : List Token) {p : Position} {tail : List Char}

/-- One field, behind the gap before its name, up to what stands behind it. -/
theorem reaches_field (allowed : Bool) (outer : List Nat) {name : String} {style : ScalarStyle}
    {text : String} (hname : IsName name.toList) (hfits : Fits style text.toList)
    {gap : List Char} (hgap : ∀ c ∈ gap, c = ' ' ∨ isBreak c = true)
    (hallowed : (allowed || gap.any isBreak) = true) (hcolumn : (p.behind gap).column = 2)
    (houter : ∀ m ∈ outer.head?, m ≤ 3) (hopened : openedMargins 2 outer = [3, 1])
    {behind : List Char} (hbehind : ∃ count rest, behind = spaces count ++ rest ∧ count < 3 ∧
      StartsToken rest) :
    Reaches (inBlocks allowed ⟨gap ++ (name.toList ++ ':' :: ' ' :: (renderScalar 4 style text ++
        behind)), p⟩ outer tokens)
      (inBlocks true ⟨behind, p.behind (gap ++ (name.toList ++ ':' :: ' ' ::
        renderScalar 4 style text))⟩ [3, 1]
        (tokens ++ (openedTokens 2 outer ++ fieldTokens (name, .scalar style none text)))) := by
  obtain ⟨count, rest, rfl, hcount, hrest⟩ := hbehind
  have hcolon : atGap (' ' :: (renderScalar 4 style text ++ (spaces count ++ rest))) = true := rfl
  have hkey := reaches_key tokens hgap hallowed hname hcolon [] outer (List.forall_mem_nil _)
    (by rwa [hcolumn])
  rw [hcolumn, hopened] at hkey
  have hplace : 3 ≤ (p.behind (gap ++ (name.toList ++ [':']))).column := by
    have hone : OneLine (name.toList ++ [':']) := oneLine_append.2
      ⟨hname.oneLine, oneLine_cons.2 ⟨by decide, oneLine_nil⟩⟩
    rw [Position.behind_append, Position.column_behind hone, hcolumn, List.length_append]
    simp only [List.length_cons]
    omega
  have hvalue := reaches_value (tokens ++ (openedTokens 2 outer ++
    [.key, .scalar .plain name.toList, .value])) hfits (by decide) hcount [1] hplace hrest
  have hreached := hkey.trans hvalue
  simp only [List.append_assoc, List.cons_append, List.nil_append, ← Position.behind_append]
    at hreached
  exact hreached

/-- All fields of a section behind its first one. -/
theorem reaches_fields {fields : Fields} (h : ∀ field ∈ fields, IsField field)
    (htail : StartsToken tail) (hp : p.column = 0) :
    Reaches (inBlocks true ⟨renderFields fields ++ tail, p⟩ [3, 1] tokens)
      (inBlocks true ⟨tail, p.behind (renderFields fields)⟩ [3, 1]
        (tokens ++ fields.flatMap fieldTokens)) := by
  induction fields generalizing tokens p with
  | nil =>
    rw [List.flatMap_nil, List.append_nil]
    exact .of_skipGap rfl le_rfl
  | cons field fields ih =>
    rw [List.forall_mem_cons] at h
    obtain @⟨name, style, text, hname, hfits⟩ := h.1
    have hspaces : ∀ c ∈ spaces 2, c = ' ' ∨ isBreak c = true := fun c hc =>
      .inl (eq_space_of_mem_spaces hc)
    have hcolumn : (p.behind (spaces 2)).column = 2 := by
      rw [Position.column_behind (oneLine_spaces 2), hp, length_spaces]
    have hfirst := reaches_field tokens true [3, 1] hname hfits hspaces rfl hcolumn (by simp) rfl
      (exists_spaces_renderFields h.2 htail)
    have hreached := hfirst.trans (ih (tokens ++ (openedTokens 2 [3, 1] ++
      fieldTokens (name, .scalar style none text))) h.2
        (column_behind_field (spaces 2) name.toList hfits p))
    rw [renderFields_cons, List.flatMap_cons]
    simp only [List.append_assoc, List.cons_append, ← Position.behind_append] at hreached ⊢
    exact hreached

end Layout

/-- Behind fields, a line starts. -/
theorem column_behind_renderFields {fields : Fields} (h : ∀ field ∈ fields, IsField field)
    {p : Position} (hp : p.column = 0) : (p.behind (renderFields fields)).column = 0 := by
  induction fields generalizing p with
  | nil => exact hp
  | cons field fields ih =>
    rw [List.forall_mem_cons] at h
    obtain @⟨name, style, text, hname, hfits⟩ := h.1
    have hline := column_behind_field (spaces 2) name.toList hfits p
    simp only [renderFields_cons, Position.behind_append, Position.behind_cons] at hline ⊢
    exact ih h.2 hline

/-! ## Sections -/

/-- The text of sections. -/
def renderSections (sections : List (String × Fields)) : List Char :=
  sections.flatMap fun (name, fields) => name.toList ++ [':', '\n'] ++ renderFields fields

/-- A section that can be written: a name with fields that can. -/
structure IsSection (entry : String × Fields) : Prop where
  isName : Layout.IsName entry.1.toList
  isField : ∀ field ∈ entry.2, IsField field

/-- The column right of the fields of a section. A section without fields has none. -/
def fieldMargins (fields : Fields) : List Nat := if fields.isEmpty then [] else [3]

/-- The tokens of the fields of a section, without the end of their block. -/
def openBlockTokens (fields : Fields) : List Token :=
  if fields.isEmpty then [] else .blockMappingStart :: fields.flatMap fieldTokens

/-- The tokens of a section. -/
def sectionTokens : String × Fields → List Token
  | (name, fields) => [.key, .scalar .plain name.toList, .value] ++ (openBlockTokens fields ++
      List.replicate (fieldMargins fields).length .blockEnd)

/-- The tokens of sections: a mapping, unless there are none. -/
def documentTokens (sections : List (String × Fields)) : List Token :=
  (if sections.isEmpty then []
    else .blockMappingStart :: sections.flatMap sectionTokens ++ [.blockEnd]) ++ [.streamEnd]

theorem renderSections_cons (name : String) (fields : Fields)
    (sections : List (String × Fields)) : renderSections ((name, fields) :: sections) =
      name.toList ++ ':' :: '\n' :: (renderFields fields ++ renderSections sections) := by
  simp [renderSections]

/-- Behind a section, a line starts. -/
theorem column_behind_section (name : List Char) {fields : Fields}
    (h : ∀ field ∈ fields, IsField field) (p : Position) :
    (p.behind (name ++ ':' :: '\n' :: renderFields fields)).column = 0 := by
  rw [Position.behind_append, Position.behind_cons, Position.behind_cons]
  exact column_behind_renderFields h (Position.column_past_of_isBreak (by decide) _)

theorem startsToken_renderSections {sections : List (String × Fields)}
    (h : ∀ entry ∈ sections, IsSection entry) : Layout.StartsToken (renderSections sections) := by
  cases sections with
  | nil => simp [renderSections, Layout.StartsToken]
  | cons entry sections =>
    rw [renderSections, List.flatMap_cons, List.append_assoc, List.append_assoc]
    exact (h entry List.mem_cons_self).isName.startsToken _

namespace Layout

variable (tokens : List Token) {p : Position} {tail : List Char}

/-- The fields of a section, behind its colon. -/
theorem reaches_block {fields : Fields} (h : ∀ field ∈ fields, IsField field)
    (htail : StartsToken tail) :
    Reaches (inBlocks false ⟨'\n' :: (renderFields fields ++ tail), p⟩ [1] tokens)
      (inBlocks true ⟨tail, p.behind ('\n' :: renderFields fields)⟩ (fieldMargins fields ++ [1])
        (tokens ++ openBlockTokens fields)) := by
  cases fields with
  | nil =>
    have hfeed : ∀ c ∈ ['\n'], c = ' ' ∨ isBreak c = true :=
      List.forall_mem_singleton.2 (.inr (by decide))
    have hend : (inBlocks false ⟨'\n' :: tail, p⟩ [1] tokens).skipGap =
        (inBlocks true ⟨tail, p.past '\n'⟩ [1] (tokens ++ [])).skipGap := by
      rw [List.append_nil]
      exact (skipGap_inBlocks hfeed htail).trans (skipGap_eq_self htail).symm
    exact .of_skipGap hend (Nat.le_succ _)
  | cons field fields =>
    obtain ⟨hfield, hfields⟩ := List.forall_mem_cons.1 h
    obtain @⟨name, style, text, hname, hfits⟩ := hfield
    have hfirst := reaches_field tokens false [1] hname hfits (lineEnd_spec 2).1
      (lineEnd_spec 2).2 (column_behind_lineEnd 2 p) (by simp) rfl
      (exists_spaces_renderFields hfields htail)
    have hreached := hfirst.trans (reaches_fields _ hfields htail
      (column_behind_field ('\n' :: spaces 2) name.toList hfits p))
    rw [renderFields_cons, openBlockTokens, List.flatMap_cons]
    simp only [List.append_assoc, List.cons_append, ← Position.behind_append] at hreached ⊢
    exact hreached

/-- One section. Before it the block of the fields before ends. -/
theorem reaches_section {name : String} {fields : Fields} (h : IsSection (name, fields))
    (inner outer : List Nat) (hinner : ∀ m ∈ inner, 1 < m) (houter : ∀ m ∈ outer.head?, m ≤ 1)
    (hopened : openedMargins 0 outer = [1]) (htail : StartsToken tail) (hp : p.column = 0) :
    Reaches (inBlocks true ⟨name.toList ++ ':' :: '\n' :: (renderFields fields ++ tail), p⟩
        (inner ++ outer) tokens)
      (inBlocks true ⟨tail, p.behind (name.toList ++ ':' :: '\n' :: renderFields fields)⟩
        (fieldMargins fields ++ [1])
        (tokens ++ (List.replicate inner.length .blockEnd ++ (openedTokens 0 outer ++
          ([.key, .scalar .plain name.toList, .value] ++ openBlockTokens fields))))) := by
  have hcolon : atGap ('\n' :: (renderFields fields ++ tail)) = true := rfl
  have hallowed : (true || ([] : List Char).any isBreak) = true := rfl
  have hkey := reaches_key tokens (p := p) (List.forall_mem_nil _) hallowed h.isName hcolon inner
    outer (by rwa [Position.behind_nil, hp]) (by rwa [Position.behind_nil, hp])
  rw [Position.behind_nil, hp, hopened] at hkey
  have hreached := hkey.trans (reaches_block _ h.isField htail)
  simp only [List.append_assoc, List.cons_append, List.nil_append, ← Position.behind_append]
    at hreached ⊢
  exact hreached

/-- At the end of the text all blocks end. -/
theorem run_end {margins : List Nat} (hmargins : ∀ m ∈ margins, 0 < m) (fuel : Nat) :
    run (fuel + 1) (inBlocks true ⟨[], p⟩ margins tokens) = some
      (tokens ++ (List.replicate margins.length Token.blockEnd ++ [Token.streamEnd])).toArray := by
  have hstart : StartsToken [] := by simp [StartsToken]
  have hclose : (inBlocks true ⟨[], p⟩ (margins ++ []) tokens).closeBlocks 0 =
      inBlocks true ⟨[], p⟩ [] (tokens ++ List.replicate margins.length .blockEnd) :=
    closeBlocks_inBlocks hmargins (by simp) _
  rw [List.append_nil] at hclose
  rw [run, skipGap_eq_self (s := inBlocks true ⟨[], p⟩ margins tokens) hstart,
    dropEndedKeys_inBlocks]
  change (inBlocks true ⟨[], p⟩ margins tokens).finish = _
  rw [finish, hclose]
  change some (push _ _).tokens = _
  simp only [push, inBlocks, List.push_toArray, List.append_assoc]

theorem one_lt_of_mem_fieldMargins {fields : Fields} : ∀ m ∈ fieldMargins fields, 1 < m := by
  rw [fieldMargins]
  split <;> simp

/-- All sections behind the first one, and the end of the text. -/
theorem run_sections {sections : List (String × Fields)}
    (h : ∀ entry ∈ sections, IsSection entry) {inner : List Nat} (hinner : ∀ m ∈ inner, 1 < m)
    (hp : p.column = 0) {fuel : Nat} (hfuel : (renderSections sections).length < fuel) :
    run fuel (inBlocks true ⟨renderSections sections, p⟩ (inner ++ [1]) tokens) =
      some (tokens ++ (List.replicate inner.length Token.blockEnd ++
        (sections.flatMap sectionTokens ++ [Token.blockEnd, .streamEnd]))).toArray := by
  induction sections generalizing inner tokens p fuel with
  | nil =>
    obtain ⟨n, rfl⟩ : ∃ n, fuel = n + 1 := ⟨fuel - 1, by omega⟩
    have hmargins : ∀ m ∈ inner ++ [1], 0 < m :=
      List.forall_mem_append.2 ⟨fun m hm => (Nat.zero_lt_one.trans (hinner m hm)), by simp⟩
    have hend := run_end tokens (p := p) hmargins n
    rw [List.length_append, List.length_singleton, List.replicate_succ'] at hend
    rw [renderSections]
    simpa only [List.append_assoc, List.flatMap_nil, List.nil_append, List.cons_append] using hend
  | cons entry sections ih =>
    obtain ⟨name, fields⟩ := entry
    rw [List.forall_mem_cons] at h
    rw [renderSections_cons] at hfuel ⊢
    obtain ⟨fuel', hfuel', hrun⟩ := reaches_section tokens h.1 inner [1] hinner (by simp) rfl
      (startsToken_renderSections h.2) hp fuel hfuel
    rw [hrun, ih _ h.2 one_lt_of_mem_fieldMargins
      (column_behind_section name.toList h.1.isField p) hfuel', List.flatMap_cons, sectionTokens]
    simp only [List.append_assoc]
    rfl

end Layout

/-! ## Documents -/

/-- The characters of fields need no escapes. -/
theorem isPrintable_of_mem_renderFields {fields : Fields} (h : ∀ field ∈ fields, IsField field) :
    ∀ c ∈ renderFields fields, isPrintable c = true := by
  induction fields with
  | nil => exact fun c hc => absurd hc List.not_mem_nil
  | cons field fields ih =>
    rw [List.forall_mem_cons] at h
    obtain @⟨name, style, text, hname, hfits⟩ := h.1
    have hchars : ∀ c ∈ name.toList, isPrintable c = true := fun c hc =>
      (isKeyChar_spec (hname.chars c hc)).1
    rw [renderFields_cons]
    simp only [List.forall_mem_append, List.forall_mem_cons]
    exact ⟨fun _ => isPrintable_of_mem_spaces, hchars, by decide, by decide,
      isPrintable_of_mem_renderScalar hfits 4, ih h.2⟩

/-- The characters of sections need no escapes. -/
theorem isPrintable_of_mem_renderSections {sections : List (String × Fields)}
    (h : ∀ entry ∈ sections, IsSection entry) :
    ∀ c ∈ renderSections sections, isPrintable c = true := by
  induction sections with
  | nil => exact fun c hc => absurd hc List.not_mem_nil
  | cons entry sections ih =>
    obtain ⟨name, fields⟩ := entry
    rw [List.forall_mem_cons] at h
    have hchars : ∀ c ∈ name.toList, isPrintable c = true := fun c hc =>
      (isKeyChar_spec (h.1.isName.chars c hc)).1
    rw [renderSections_cons]
    simp only [List.forall_mem_append, List.forall_mem_cons]
    exact ⟨hchars, by decide, by decide, isPrintable_of_mem_renderFields h.1.isField, ih h.2⟩

/-- The tokens of what is written. -/
theorem tokens?_render {sections : List (String × Fields)}
    (h : ∀ entry ∈ sections, IsSection entry) :
    tokens? (render sections).toList = some (documentTokens sections) := by
  have hprintable := isPrintable_of_mem_renderSections h
  have hallowed : (renderSections sections).all isAllowed = true :=
    List.all_eq_true.2 fun c hc => (isAllowed_of_isPrintable (hprintable c hc)).1
  have htext : (render sections).toList = renderSections sections := String.toList_ofList
  rw [htext, tokens?, if_pos hallowed, unifyBreaks_eq_self hprintable, startCursor_eq hprintable]
  change (Layout.run _ (Layout.inBlocks true ⟨renderSections sections, ⟨0, 0, 0⟩⟩ [] [])).map
    Array.toList = _
  cases sections with
  | nil =>
    rw [renderSections, List.flatMap_nil, Layout.run_end [] (List.forall_mem_nil _)]
    rfl
  | cons entry sections =>
    obtain ⟨name, fields⟩ := entry
    rw [List.forall_mem_cons] at h
    rw [renderSections_cons]
    have hfirst := Layout.reaches_section [] h.1 [] [] (by simp) (by simp) rfl
      (startsToken_renderSections h.2) (p := ⟨0, 0, 0⟩) rfl
    obtain ⟨fuel, hfuel, hrun⟩ := hfirst ((name.toList ++ ':' :: '\n' :: (renderFields fields ++
      renderSections sections)).length + 1) (Nat.lt_succ_self _)
    rw [List.nil_append] at hrun
    rw [hrun, Layout.run_sections _ h.2 Layout.one_lt_of_mem_fieldMargins
      (column_behind_section name.toList h.1.isField _) hfuel, documentTokens, List.flatMap_cons,
      sectionTokens]
    have hopened : Layout.openedTokens 0 [] = [.blockMappingStart] := rfl
    simp [hopened]

end ProcedureCatalog.Yaml
