/-
# Stream files of source members

The stream file that a member is copied to is named after the library, the file and the member,
with an underscore between each two. Names may hold underscores themselves, so two members can
share a stream file: the same text, cut at other underscores.

* `eq_of_append_underscore` : a text has one cut at an underscore with a given number of
  underscores before it.
* `sourceStreamFile_eq_iff` : which members share a stream file.
* `sourceStreamFile_injective` : none do when neither libraries nor files hold underscores.
* `streamFiles_collide` : two members with valid names that share one.
-/
import Mathlib.Data.List.Basic
import ProcedureCatalog.Host.Command

namespace ProcedureCatalog.Host

/-- The number of underscores in a name. -/
def underscores (name : String) : Nat := name.toList.count '_'

/-- The three names with an underscore between each two. -/
def joined (library file member : String) : String :=
  library ++ "_" ++ file ++ "_" ++ member

/-! ## Cuts at underscores -/

/-- A text has one cut at an underscore with a given number of underscores before it. -/
theorem eq_of_append_underscore {a a' b b' : List Char} (h : a ++ '_' :: b = a' ++ '_' :: b')
    (hcount : a.count '_' = a'.count '_') : a = a' ∧ b = b' := by
  induction a generalizing a' with
  | nil =>
    cases a' with
    | nil => exact ⟨rfl, (List.cons.inj h).2⟩
    | cons c a' =>
      -- the other part would start with an underscore and count one
      rw [← (List.cons.inj h).1, List.count_cons_self] at hcount
      simp at hcount
  | cons c a ih =>
    cases a' with
    | nil =>
      rw [(List.cons.inj h).1, List.count_cons_self] at hcount
      simp at hcount
    | cons c' a' =>
      obtain ⟨rfl, hrest⟩ := List.cons.inj h
      have hcount' : a.count '_' = a'.count '_' := by
        rw [List.count_cons, List.count_cons] at hcount
        omega
      obtain ⟨rfl, rfl⟩ := ih hrest hcount'
      exact ⟨rfl, rfl⟩

/-- The joined names determine the three names, once the underscores in the library and in the
file are counted. -/
theorem eq_of_joined_eq {library file member library' file' member' : String}
    (h : joined library file member = joined library' file' member')
    (hlibrary : underscores library = underscores library')
    (hfile : underscores file = underscores file') :
    library = library' ∧ file = file' ∧ member = member' := by
  have hchars : library.toList ++ '_' :: (file.toList ++ '_' :: member.toList) =
      library'.toList ++ '_' :: (file'.toList ++ '_' :: member'.toList) := by
    have := congrArg String.toList h
    simpa [joined, String.toList_append] using this
  obtain ⟨hl, hrest⟩ := eq_of_append_underscore hchars hlibrary
  obtain ⟨hf, hm⟩ := eq_of_append_underscore hrest hfile
  exact ⟨String.toList_inj.1 hl, String.toList_inj.1 hf, String.toList_inj.1 hm⟩

/-! ## Stream files -/

/-- A stream file is named after the joined names. -/
theorem sourceStreamFile_eq_joined (library file member : String) :
    sourceStreamFile library file member =
      "/tmp/srcread_" ++ joined library file member ++ ".txt" := by
  unfold sourceStreamFile joined
  -- as variables the literals are not unfolded to their characters
  generalize "/tmp/srcread_" = start
  generalize "_" = underscore
  simp only [String.append_assoc]

/-- Stream files are the same exactly when the joined names are. -/
theorem sourceStreamFile_eq_iff_joined {library file member library' file' member' : String} :
    sourceStreamFile library file member = sourceStreamFile library' file' member' ↔
      joined library file member = joined library' file' member' := by
  rw [sourceStreamFile_eq_joined, sourceStreamFile_eq_joined]
  constructor
  · intro h
    have hchars := congrArg String.toList h
    rw [String.toList_append, String.toList_append, String.toList_append,
      String.toList_append] at hchars
    have hinner := List.append_cancel_left (List.append_cancel_right hchars)
    exact String.toList_inj.1 hinner
  · intro h
    rw [h]

/-- **Which members share a stream file.** Two members have the same stream file exactly when they
are the same, or when their joined names are one text that is cut at other underscores. -/
theorem sourceStreamFile_eq_iff (library file member library' file' member' : String) :
    sourceStreamFile library file member = sourceStreamFile library' file' member' ↔
      (library = library' ∧ file = file' ∧ member = member') ∨
        (joined library file member = joined library' file' member' ∧
          (underscores library ≠ underscores library' ∨ underscores file ≠ underscores file')) := by
  rw [sourceStreamFile_eq_iff_joined]
  constructor
  · intro h
    by_cases hlibrary : underscores library = underscores library'
    · by_cases hfile : underscores file = underscores file'
      · exact .inl (eq_of_joined_eq h hlibrary hfile)
      · exact .inr ⟨h, .inr hfile⟩
    · exact .inr ⟨h, .inl hlibrary⟩
  · rintro (⟨rfl, rfl, rfl⟩ | ⟨h, -⟩)
    · rfl
    · exact h

/-- Two members with valid names have the same stream file. -/
theorem streamFiles_collide :
    ObjectName.validate .library "A_B" = .ok () ∧ ObjectName.validate .file "C" = .ok () ∧
      ObjectName.validate .library "A" = .ok () ∧ ObjectName.validate .file "B_C" = .ok () ∧
      ObjectName.validate .member "D" = .ok () ∧
      ("A_B", "C", "D") ≠ ("A", "B_C", "D") ∧
      sourceStreamFile "A_B" "C" "D" = sourceStreamFile "A" "B_C" "D" := by
  decide

/-- Members of libraries and files without underscores have different stream files. -/
theorem sourceStreamFile_injective {library file member library' file' member' : String}
    (hlibrary : underscores library = 0) (hfile : underscores file = 0)
    (hlibrary' : underscores library' = 0) (hfile' : underscores file' = 0)
    (h : sourceStreamFile library file member = sourceStreamFile library' file' member') :
    library = library' ∧ file = file' ∧ member = member' :=
  eq_of_joined_eq (sourceStreamFile_eq_iff_joined.1 h) (hlibrary.trans hlibrary'.symm)
    (hfile.trans hfile'.symm)

end ProcedureCatalog.Host
