/-
# Descriptions from the source are clean

Whatever the comments of a source look like, a description that comes from them is a short
collapsed text without leading decoration, and a second normalization changes nothing.

* `IsFromSource.isClean` : a text that a pass over the source gives is clean.
* `documented_isClean` : so is every entry of an extraction that comes from the source.
-/
import ProcedureCatalog.Proofs.Description.CollapsedForm
import ProcedureCatalog.Proofs.Extraction.Entries

namespace ProcedureCatalog

open Text

/-- The text is not empty and within the limit, normalizing and collapsing change nothing, and it
starts with neither a dash nor a double slash. -/
structure Description.IsClean (text : String) : Prop where
  ne_empty : text ≠ ""
  length_le : text.toList.length ≤ Description.limit
  normalize_eq : Description.normalize text = text
  collapse_eq : Description.collapse text = text
  isCollapsed : IsCollapsed text.toList
  not_dash : ¬ ['-'] <+: text.toList
  not_slashes : ¬ ['/', '/'] <+: text.toList

/-- A text from the source is clean. -/
theorem IsFromSource.isClean {text : String} (h : IsFromSource text) :
    Description.IsClean text := by
  obtain ⟨raw, htext, hne⟩ := h
  have hchars : text.toList = Description.normalizeChars (collapse raw) := by
    rw [htext, String.toList_ofList]
  have hcollapsed : IsCollapsed text.toList := by
    rw [hchars]
    exact Description.isCollapsed_normalizeChars (isCollapsed_collapse raw)
  have hplain : Description.StartsPlain text.toList := by
    rw [hchars]
    exact Description.startsPlain_normalizeChars (isCollapsed_collapse raw).head
  refine ⟨hne, ?_, ?_, ?_, hcollapsed, hplain.not_dash_isPrefix, hplain.not_slashes_isPrefix⟩
  · rw [hchars]
    exact Description.length_normalizeChars_le _
  · apply String.toList_inj.1
    rw [Description.toList_normalize, hchars, Description.normalizeChars_normalizeChars]
  · rw [Description.collapse, hcollapsed.collapse_eq_self, String.ofList_toList]

/-- **Documented text comes out clean.** Every entry of an extraction that a label or a comment
block gave holds a clean text, for all names, sources and strategies. -/
theorem documented_isClean (expected : ExpectedNames) (strategies : List Strategy)
    (source : String) : ∀ entry ∈ (extract expected strategies source).entries,
      entry.2.strategy = .inlineLabel ∨ entry.2.strategy = .blockHeader →
        Description.IsClean entry.2.text := by
  intro entry hentry hstrategy
  have hgive := isFaithful_extract expected strategies source entry hentry
  rcases hstrategy with h | h
  · rw [h] at hgive
    exact IsFromSource.isClean hgive
  · rw [h] at hgive
    exact IsFromSource.isClean hgive

/-- A label with a frame of stars and a banner above a declaration both come out clean. -/
theorem documented_isClean_label_and_banner :
    let source := "// A_ONE :  uno   dos ****\ndcl-s x;\n// --- // TWO(): - tres // v2\n" ++
      "dcl-proc TWO export;\n"
    (extract (.ofList ["A_ONE", "A_TWO"]) Strategy.fromSource source).entries =
        [("A_ONE", ⟨"uno dos", .inlineLabel, some 1⟩),
          ("A_TWO", ⟨"tres", .blockHeader, some 4⟩)] ∧
      Description.IsClean "uno dos" ∧ Description.IsClean "tres" := by
  intro source
  have hentries : (extract (.ofList ["A_ONE", "A_TWO"]) Strategy.fromSource source).entries =
      [("A_ONE", ⟨"uno dos", .inlineLabel, some 1⟩),
        ("A_TWO", ⟨"tres", .blockHeader, some 4⟩)] := by
    unfold source
    decide +kernel
  have hclean := documented_isClean (.ofList ["A_ONE", "A_TWO"]) Strategy.fromSource source
  rw [hentries] at hclean
  refine ⟨hentries, ?_, ?_⟩
  · exact hclean ("A_ONE", ⟨"uno dos", .inlineLabel, some 1⟩) (by simp) (.inl rfl)
  · exact hclean ("A_TWO", ⟨"tres", .blockHeader, some 4⟩) (by simp) (.inr rfl)

end ProcedureCatalog
