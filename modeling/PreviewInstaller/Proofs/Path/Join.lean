import PreviewInstaller.Proofs.Path

set_option autoImplicit false

/-! # Laws of joined paths

A path that is joined with a relative one consists of the names of both and starts and ends as they
do; one that is joined with an absolute path is that path. -/

namespace PreviewInstaller.Path

variable {outer : Path} {inner : String}

theorem join_of_isAbsolute (h : Path.isAbsolute ⟨inner⟩ = true) : outer.join inner = ⟨inner⟩ := by
  rw [join, if_pos h]

theorem join_of_empty (h : outer.text = "") : outer.join inner = ⟨inner⟩ := by
  unfold join
  rw [if_pos (Or.inl h), h, String.empty_append, ite_self]

/-- Between two paths that are joined stands one slash more than the outer one ends in, if any. -/
theorem exists_text_join (hrelative : Path.isAbsolute ⟨inner⟩ = false) (hne : outer.text ≠ "") :
    ∃ front, (outer.text.toList = front ∨ outer.text.toList = front ++ ['/']) ∧
      (outer.join inner).text.toList = front ++ '/' :: inner.toList := by
  unfold join
  rw [if_neg (by rw [hrelative]; nofun)]
  by_cases hslash : outer.endsInSlash = true
  · obtain ⟨front, hfront⟩ := List.getLast?_eq_some_iff.1 (of_decide_eq_true hslash)
    refine ⟨front, .inr hfront, ?_⟩
    rw [if_pos (Or.inr hslash), String.toList_append, hfront, List.append_assoc]
    rfl
  · refine ⟨outer.text.toList, .inl rfl, ?_⟩
    rw [if_neg (not_or.2 ⟨hne, hslash⟩), String.toList_append, String.toList_append,
      List.append_assoc]
    rfl

theorem isAbsolute_join (outer : Path) (inner : String) :
    (outer.join inner).isAbsolute = (outer.isAbsolute || Path.isAbsolute ⟨inner⟩) := by
  cases hinner : Path.isAbsolute ⟨inner⟩ with
  | true => rw [join_of_isAbsolute hinner, hinner, Bool.or_true]
  | false =>
    rw [Bool.or_false]
    by_cases hempty : outer.text = ""
    · rw [join_of_empty hempty, hinner, isAbsolute, hempty]
      rfl
    · obtain ⟨front, houter, hjoin⟩ := exists_text_join hinner hempty
      rw [isAbsolute, isAbsolute, hjoin]
      cases front with
      | nil =>
        rcases houter with houter | houter
        · exact absurd (String.toList_eq_nil_iff.1 houter) hempty
        · rw [houter]
          rfl
      | cons c front => rcases houter with houter | houter <;> rw [houter] <;> rfl

theorem components_join_of_relative (hrelative : Path.isAbsolute ⟨inner⟩ = false) :
    (outer.join inner).components = outer.components ++ Path.components ⟨inner⟩ := by
  by_cases hempty : outer.text = ""
  · have houter : outer.components = [] := by
      rw [components_eq, hempty]
      rfl
    rw [join_of_empty hempty, houter, List.nil_append]
  · obtain ⟨front, houter, hjoin⟩ := exists_text_join hrelative hempty
    have hnames : outer.components = namesOf front := by
      rw [components_eq]
      rcases houter with houter | houter
      · rw [houter]
      · rw [houter, namesOf_slash]
    rw [components_eq, hjoin, namesOf_append, hnames, components_eq]

/-- A joined path can end in a slash only if the inner one does, which has a text. -/
theorem endsInSlash_join (hne : inner ≠ "") :
    (outer.join inner).endsInSlash = Path.endsInSlash ⟨inner⟩ := by
  obtain ⟨front, hfront⟩ : ∃ front, (outer.join inner).text.toList = front ++ inner.toList := by
    unfold join
    split
    · exact ⟨[], rfl⟩
    · split <;> exact ⟨_, String.toList_append⟩
  obtain ⟨c, hlast⟩ : ∃ c, inner.toList.getLast? = some c :=
    Option.isSome_iff_exists.1 (by simpa using hne)
  rw [endsInSlash, endsInSlash, hfront, List.getLast?_append, hlast, Option.some_or]

/-- The last piece of a joined path is the one of the inner path, which has pieces. -/
theorem lastPiece_join (hpiece : Disk.lastPiece ⟨inner⟩ ≠ "") :
    Disk.lastPiece (outer.join inner) = Disk.lastPiece ⟨inner⟩ := by
  cases hinner : Path.isAbsolute ⟨inner⟩ with
  | true => rw [join_of_isAbsolute hinner]
  | false =>
    by_cases hempty : outer.text = ""
    · rw [join_of_empty hempty]
    · obtain ⟨front, -, hjoin⟩ := exists_text_join hinner hempty
      unfold Disk.lastPiece at hpiece ⊢
      rw [hjoin, Text.pieces_append, List.filter_append, List.getLast?_append]
      cases hlast : ((Text.pieces '/' inner.toList).filter (· ≠ [])).getLast? with
      | none =>
        rw [hlast] at hpiece
        exact absurd rfl hpiece
      | some piece => rfl

/-- A joined path has a NUL byte if the outer one does. -/
theorem hasNul_of_join (hrelative : Path.isAbsolute ⟨inner⟩ = false)
    (h : (outer.join inner).hasNul = false) : outer.hasNul = false := by
  by_cases hempty : outer.text = ""
  · rw [hasNul, hempty]
    rfl
  · obtain ⟨front, houter, hjoin⟩ := exists_text_join hrelative hempty
    rw [hasNul, hjoin, List.contains_append, Bool.or_eq_false_iff] at h
    rw [hasNul]
    rcases houter with houter | houter
    · rw [houter]
      exact h.1
    · rw [houter, List.contains_append, h.1]
      rfl

end PreviewInstaller.Path
