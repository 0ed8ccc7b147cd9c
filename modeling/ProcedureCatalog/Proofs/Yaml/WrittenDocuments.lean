/-
# Documents read back

The document that is read from what is written for sections has these sections.

* `nodeUnless_scalar`, `blockPairs_pair` : one scalar, and one pair of a mapping.
* `blockPairs_fields`, `blockPairs_sections` : the pairs of a mapping of scalars, and of sections.
* `parse?_render` : the whole document. Where a mapping has no pairs nothing is written, so an empty
  scalar is read.
-/
import ProcedureCatalog.Proofs.Yaml.WrittenTokens

namespace ProcedureCatalog.Yaml

namespace Build

variable {fuel : Nat} {b c : Builder} {ts : List Token}

/-! ## Steps of reading -/

theorem run_bind_eq {α β : Type} {x : Build α} {f : α → Build β} {a : α}
    (h : x.run b = some (a, c)) : (x >>= f).run b = (f a).run c := by
  rw [StateT.run_bind, h]
  rfl

theorem peek_eq (token : Token) : (peek).run { b with tokens := token :: ts } =
    some (token, { b with tokens := token :: ts }) := rfl

theorem accept_eq (token : Token) : (accept token).run { b with tokens := token :: ts } =
    some (true, { b with tokens := ts }) := by
  rw [accept, run_bind_eq (peek_eq token), beq_self_eq_true, if_pos rfl]
  rfl

theorem accept_ne {token other : Token} (h : other ≠ token) :
    (accept token).run { b with tokens := other :: ts } =
      some (false, { b with tokens := other :: ts }) := by
  rw [accept, run_bind_eq (peek_eq other), beq_eq_false_iff_ne.2 h, if_neg Bool.false_ne_true]
  rfl

theorem expect_eq (token : Token) : (expect token).run { b with tokens := token :: ts } =
    some ((), { b with tokens := ts }) := by
  rw [expect, run_bind_eq (accept_eq token)]
  rfl

/-! ## Nodes -/

/-- The tokens that show that a key or a value of a mapping is not written. -/
abbrev pairEnds : List Token := [.key, .value, .blockEnd]

/-- A scalar as a key or a value. -/
theorem nodeUnless_scalar (style : ScalarStyle) (text : List Char) :
    (nodeUnless pairEnds true true (fuel + 2)).run { b with tokens := .scalar style text :: ts } =
      some (.scalar style none (String.ofList text), { b with tokens := ts }) := by
  have hstart : pairEnds.contains (Token.scalar style text) = false := by simp [pairEnds]
  rw [nodeUnless, run_bind_eq (peek_eq _), hstart, if_neg Bool.false_ne_true]
  rfl

/-- Nothing is written. -/
theorem nodeUnless_end {token : Token} (h : token ∈ pairEnds) :
    (nodeUnless pairEnds true true (fuel + 1)).run { b with tokens := token :: ts } =
      some (.empty, { b with tokens := token :: ts }) := by
  have hend : pairEnds.contains token = true := List.contains_iff_mem.2 h
  rw [nodeUnless, run_bind_eq (peek_eq token), hend, if_pos rfl]
  rfl

/-- A mapping in block form, at its start. -/
theorem node_mapping {pairs : List (Node × Node)} (indentless : Bool)
    (h : (blockPairs fuel).run { b with tokens := ts } = some (pairs, c)) :
    (node true indentless (fuel + 1)).run { b with tokens := .blockMappingStart :: ts } =
      some (.mapping pairs, c) := by
  have hproperties : properties.run { b with tokens := .blockMappingStart :: ts } =
      some ((none, none), { b with tokens := .blockMappingStart :: ts }) := rfl
  have hadvance : advance.run { b with tokens := .blockMappingStart :: ts } =
      some ((), { b with tokens := ts }) := rfl
  have hcontent : (advance >>= fun _ => blockPairs fuel >>= fun pairs =>
      pure (.mapping pairs) : Build Node).run { b with tokens := .blockMappingStart :: ts } =
        some (.mapping pairs, c) := by
    rw [run_bind_eq hadvance, run_bind_eq h]
    rfl
  rw [node, run_bind_eq (peek_eq _)]
  simp only
  rw [run_bind_eq hproperties]
  refine (run_bind_eq (a := .mapping pairs) (c := c) ?_).trans rfl
  rw [run_bind_eq (peek_eq _)]
  exact hcontent

/-- A mapping as a value. -/
theorem nodeUnless_mapping {pairs : List (Node × Node)}
    (h : (blockPairs fuel).run { b with tokens := ts } = some (pairs, c)) :
    (nodeUnless pairEnds true true (fuel + 2)).run
      { b with tokens := .blockMappingStart :: ts } = some (.mapping pairs, c) := by
  have hstart : pairEnds.contains .blockMappingStart = false := by decide
  rw [nodeUnless, run_bind_eq (peek_eq _), hstart, if_neg Bool.false_ne_true]
  exact node_mapping true h

/-! ## Pairs -/

/-- The end of a mapping. -/
theorem blockPairs_end : (blockPairs (fuel + 1)).run { b with tokens := .blockEnd :: ts } =
    some ([], { b with tokens := ts }) := by
  rw [blockPairs, run_bind_eq (accept_eq _)]
  rfl

/-- One pair of a mapping: a name and a value. -/
theorem blockPairs_pair (name : List Char) {value : Node} {pairs : List (Node × Node)}
    {behind : List Token}
    (hvalue : (nodeUnless pairEnds true true (fuel + 2)).run { b with tokens := ts } =
      some (value, { b with tokens := behind }))
    (hmore : (blockPairs (fuel + 2)).run { b with tokens := behind } = some (pairs, c)) :
    (blockPairs (fuel + 3)).run
        { b with tokens := .key :: .scalar .plain name :: .value :: ts } =
      some ((.scalar .plain none (String.ofList name), value) :: pairs, c) := by
  rw [blockPairs, run_bind_eq (accept_ne (by simp)), if_neg Bool.false_ne_true,
    run_bind_eq (expect_eq _)]
  rw [run_bind_eq (nodeUnless_scalar .plain name), run_bind_eq (accept_eq _), if_pos rfl]
  rw [run_bind_eq hvalue, run_bind_eq hmore]
  rfl

end Build

/-- The node that is read for a mapping: without pairs nothing is written. -/
def blockNode (fields : Fields) : Node := if fields.isEmpty then .empty else .ofFields fields

/-- The document that is read for sections. -/
def writtenDocument (sections : List (String × Fields)) : Document :=
  ⟨blockNode (sections.map fun (name, fields) => (name, blockNode fields)), []⟩

/-- The names of fields are read as plain scalars. -/
def namedPairs (fields : Fields) : List (Node × Node) :=
  fields.map fun (name, node) => (.scalar .plain none name, node)

namespace Build

variable {fuel : Nat} {b : Builder} {ts : List Token}

/-- The fields of a section. -/
theorem blockPairs_fields {fields : Fields} (h : ∀ field ∈ fields, IsField field)
    (hfuel : fields.length + 2 < fuel) :
    (blockPairs fuel).run { b with tokens := fields.flatMap fieldTokens ++ .blockEnd :: ts } =
      some (namedPairs fields, { b with tokens := ts }) := by
  induction fields generalizing fuel with
  | nil =>
    obtain ⟨n, rfl⟩ : ∃ n, fuel = n + 1 := ⟨fuel - 1, by omega⟩
    exact blockPairs_end
  | cons field fields ih =>
    rw [List.forall_mem_cons] at h
    obtain @⟨name, style, text, hname, hfits⟩ := h.1
    obtain ⟨n, rfl⟩ : ∃ n, fuel = n + 3 := ⟨fuel - 3, by omega⟩
    rw [List.length_cons] at hfuel
    have hmoreFuel : fields.length + 2 < n + 2 := by omega
    have hpair := blockPairs_pair name.toList (nodeUnless_scalar (b := b) style text.toList)
      (ih h.2 hmoreFuel)
    rw [String.ofList_toList, String.ofList_toList] at hpair
    exact hpair

theorem length_le_length_openBlockTokens {fields : Fields} (h : ∀ field ∈ fields, IsField field) :
    fields.length ≤ (openBlockTokens fields).length := by
  have hlength : fields.length ≤ (fields.flatMap fieldTokens).length := by
    induction fields with
    | nil => exact Nat.zero_le _
    | cons field fields ih =>
      rw [List.forall_mem_cons] at h
      obtain @⟨name, style, text, hname, hfits⟩ := h.1
      have hle := ih h.2
      rw [List.flatMap_cons, List.length_append, fieldTokens]
      simp only [List.length_cons, List.length_nil]
      omega
  cases fields with
  | nil => exact Nat.zero_le _
  | cons field fields => exact hlength.trans (Nat.le_succ _)

/-- The value of a section, before the next key or the end of the mapping. -/
theorem nodeUnless_block {fields : Fields} (h : ∀ field ∈ fields, IsField field)
    (hfuel : fields.length + 4 < fuel) {token : Token} (htoken : token ∈ pairEnds) :
    (nodeUnless pairEnds true true fuel).run { b with
      tokens := openBlockTokens fields ++ (List.replicate (fieldMargins fields).length .blockEnd ++
        token :: ts) } = some (blockNode fields, { b with tokens := token :: ts }) := by
  obtain ⟨n, rfl⟩ : ∃ n, fuel = n + 2 := ⟨fuel - 2, by omega⟩
  cases fields with
  | nil => exact nodeUnless_end htoken
  | cons field fields =>
    exact nodeUnless_mapping (blockPairs_fields h (by omega))

/-- All sections. -/
theorem blockPairs_sections {sections : List (String × Fields)}
    (h : ∀ entry ∈ sections, IsSection entry)
    (hfuel : (sections.flatMap sectionTokens).length + 4 < fuel) (ts : List Token) :
    (blockPairs fuel).run { b with tokens := sections.flatMap sectionTokens ++ .blockEnd :: ts } =
      some (namedPairs (sections.map fun (name, fields) => (name, blockNode fields)),
        { b with tokens := ts }) := by
  induction sections generalizing fuel with
  | nil =>
    obtain ⟨n, rfl⟩ : ∃ n, fuel = n + 1 := ⟨fuel - 1, by omega⟩
    exact blockPairs_end
  | cons entry sections ih =>
    obtain ⟨name, fields⟩ := entry
    rw [List.forall_mem_cons] at h
    obtain ⟨n, rfl⟩ : ∃ n, fuel = n + 3 := ⟨fuel - 3, by omega⟩
    have hfields : ∀ field ∈ fields, IsField field := h.1.isField
    have hle := length_le_length_openBlockTokens hfields
    rw [List.flatMap_cons, sectionTokens] at hfuel ⊢
    simp only [List.length_append, List.length_cons, List.length_nil] at hfuel
    have hmoreFuel : (sections.flatMap sectionTokens).length + 4 < n + 2 := by omega
    have hmore := ih h.2 hmoreFuel
    obtain ⟨token, more, heq, htoken⟩ : ∃ token more,
        sections.flatMap sectionTokens ++ .blockEnd :: ts = token :: more ∧ token ∈ pairEnds := by
      cases sections with
      | nil => exact ⟨_, _, rfl, by simp⟩
      | cons entry sections => exact ⟨_, _, rfl, by simp⟩
    rw [heq] at hmore
    have hvalueFuel : fields.length + 4 < n + 2 := by omega
    have hpair := blockPairs_pair name.toList (nodeUnless_block hfields hvalueFuel htoken) hmore
    rw [String.ofList_toList] at hpair
    simp only [List.append_assoc, heq]
    exact hpair

/-- The document of sections. -/
theorem document_sections {sections : List (String × Fields)}
    (h : ∀ entry ∈ sections, IsSection entry)
    (hfuel : (documentTokens sections).length + 4 < fuel) :
    (document fuel).run { b with tokens := documentTokens sections } =
      some ((writtenDocument sections).root, { b with tokens := [.streamEnd] }) := by
  cases sections with
  | nil => rfl
  | cons entry sections =>
    obtain ⟨n, rfl⟩ : ∃ n, fuel = n + 1 := ⟨fuel - 1, by omega⟩
    have htokens : documentTokens (entry :: sections) = .blockMappingStart ::
        ((entry :: sections).flatMap sectionTokens ++ .blockEnd :: [.streamEnd]) := by
      simp [documentTokens]
    rw [htokens, List.length_cons, List.length_append] at hfuel
    have hstarts : startsDocument .blockMappingStart = false := rfl
    have hpairsFuel : ((entry :: sections).flatMap sectionTokens).length + 4 < n := by omega
    have hpairs := blockPairs_sections (b := b) h hpairsFuel [.streamEnd]
    rw [htokens, document, run_bind_eq (peek_eq _), if_neg (by decide)]
    simp only [hstarts, Bool.false_eq_true, if_false]
    rw [run_bind_eq (node_mapping false hpairs)]
    rfl

end Build

/-- What is written for sections is read as the document of these sections. -/
theorem parse?_render {sections : List (String × Fields)}
    (h : ∀ entry ∈ sections, IsSection entry) :
    Document.parse? (render sections) = some (writtenDocument sections) := by
  rw [Document.parse?, tokens?_render h, Option.bind_some, Document.ofTokens?]
  have hpos : 0 < (documentTokens sections).length := by simp [documentTokens]
  have hfuel : (documentTokens sections).length + 4 <
      4 * (documentTokens sections).length + 4 := by omega
  have hread := Build.document_sections h hfuel
    (b := ⟨documentTokens sections, Build.knownHandles, [], []⟩)
  rw [hread]
  rfl

end ProcedureCatalog.Yaml
