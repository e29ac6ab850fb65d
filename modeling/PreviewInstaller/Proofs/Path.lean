import PreviewInstaller.Git.Cloning

set_option autoImplicit false

/-! # Laws of paths

What the directory of a path and its last piece are: a path is the path of its directory, its last
piece, and slashes that do not count. -/

namespace PreviewInstaller

open Text (pieces pieces_ne_nil)
open Git (trimmed parentText pathOf)

/-! ## Pieces -/

theorem Text.pieces_append (separator : Char) (front back : List Char) :
    pieces separator (front ++ separator :: back) =
      pieces separator front ++ pieces separator back := by
  induction front with
  | nil =>
    cases hback : pieces separator back with
    | nil => exact absurd hback (pieces_ne_nil separator back)
    | cons first others => simp [pieces, hback]
  | cons c front ih =>
    rw [List.cons_append, pieces, ih, pieces]
    cases hfront : pieces separator front with
    | nil => exact absurd hfront (pieces_ne_nil separator front)
    | cons first others =>
      simp only [List.cons_append]
      split <;> rfl

theorem Text.pieces_of_notMem {separator : Char} {text : List Char} (h : separator ∉ text) :
    pieces separator text = [text] := by
  induction text with
  | nil => rfl
  | cons c rest ih =>
    simp only [List.mem_cons, not_or] at h
    rw [pieces, ih h.2]
    exact if_neg (Ne.symm h.1)

namespace Path

/-- The names in a text, without those that name nothing. -/
def namesOf (text : List Char) : List String :=
  ((pieces '/' text).map String.ofList).filter fun name => name ≠ "" && name ≠ "."

theorem components_eq (path : Path) : path.components = namesOf path.text.toList := rfl

theorem components_pathOf (text : List Char) : (pathOf text).components = namesOf text := by
  rw [components_eq, pathOf, String.toList_ofList]

theorem namesOf_append (front back : List Char) :
    namesOf (front ++ '/' :: back) = namesOf front ++ namesOf back := by
  rw [namesOf, Text.pieces_append, List.map_append, List.filter_append]
  rfl

@[simp]
theorem namesOf_nil : namesOf [] = [] := rfl

theorem namesOf_slash (front : List Char) : namesOf (front ++ ['/']) = namesOf front := by
  rw [namesOf_append, namesOf_nil, List.append_nil]

theorem namesOf_slashes (front : List Char) (count : Nat) :
    namesOf (front ++ List.replicate count '/') = namesOf front := by
  induction count with
  | zero => rw [List.replicate_zero, List.append_nil]
  | succ count ih => rw [List.replicate_succ', ← List.append_assoc, namesOf_slash, ih]

/-- A piece is one name, unless it names nothing. -/
theorem namesOf_piece {piece : List Char} (hne : piece ≠ []) (hpiece : '/' ∉ piece) :
    namesOf piece = if piece = ['.'] then [] else [String.ofList piece] := by
  have hempty : String.ofList piece ≠ "" := by
    rwa [ne_eq, String.ofList_eq_empty_iff]
  rw [namesOf, Text.pieces_of_notMem hpiece]
  split
  · next hdot =>
    subst hdot
    rfl
  · next hdot =>
    have hname : String.ofList piece ≠ "." := by
      intro h
      exact hdot (by simpa using congrArg String.toList h)
    simp [hempty, hname]

/-! ## The last piece -/

/-- A text that ends in a piece and slashes: what stands before the piece ends in a slash, or there
is nothing. -/
structure EndsIn (text front piece : List Char) (count : Nat) : Prop where
  eq : text = front ++ piece ++ List.replicate count '/'
  piece_ne_nil : piece ≠ []
  slash_notMem : '/' ∉ piece
  front_eq : front = [] ∨ ∃ outer, front = outer ++ ['/']

theorem dropWhile_append {keep : Char → Bool} {front back : List Char}
    (hfront : ∀ c ∈ front, keep c = true) (hback : ∀ c ∈ back.head?, keep c = false) :
    (front ++ back).dropWhile keep = back := by
  rw [List.dropWhile_append_of_pos hfront]
  cases back with
  | nil => rfl
  | cons c back => simp [hback c rfl]

/-- A text is what is left without the slashes at its end, and these. -/
theorem exists_slashes (text : List Char) :
    ∃ count, text = (text.reverse.dropWhile fun c => decide (c = '/')).reverse ++
      List.replicate count '/' := by
  have hcut := List.takeWhile_append_dropWhile (p := fun c => decide (c = '/')) (l := text.reverse)
  have hslashes : text.reverse.takeWhile (fun c => decide (c = '/')) =
      List.replicate (text.reverse.takeWhile fun c => decide (c = '/')).length '/' :=
    List.eq_replicate_of_mem fun c hc => by
      simpa using List.all_eq_true.1 (List.all_takeWhile) c hc
  refine ⟨(text.reverse.takeWhile fun c => decide (c = '/')).length, ?_⟩
  rw [← List.reverse_replicate, ← List.reverse_append, ← hslashes, hcut, List.reverse_reverse]

/-- A text ends in a piece, or it is nothing but slashes. -/
theorem endsIn_or_slashes (text : List Char) :
    (∃ front piece count, EndsIn text front piece count) ∨
      ∃ count, text = List.replicate count '/' := by
  obtain ⟨count, htext⟩ := exists_slashes text
  generalize hrest : (text.reverse.dropWhile fun c => decide (c = '/')) = rest at htext
  cases hrestCases : rest with
  | nil => exact .inr ⟨count, by rwa [hrestCases, List.reverse_nil, List.nil_append] at htext⟩
  | cons c others =>
    left
    have hc : decide (c = '/') = false := by
      have hhead := List.head?_dropWhile_not (fun c => decide (c = '/')) text.reverse
      rw [hrest, hrestCases] at hhead
      simpa using hhead
    have hcutRest := List.takeWhile_append_dropWhile (p := fun c => decide (c ≠ '/')) (l := rest)
    refine ⟨(rest.dropWhile fun c => decide (c ≠ '/')).reverse,
      (rest.takeWhile fun c => decide (c ≠ '/')).reverse, count, ?_, ?_, ?_, ?_⟩
    · rw [← List.reverse_append, hcutRest]
      exact htext
    · simp only [decide_eq_false_iff_not] at hc
      simp [hrestCases, hc]
    · intro hmem
      have hnot := List.all_eq_true.1 (List.all_takeWhile) _ (List.mem_reverse.1 hmem)
      simp at hnot
    · cases hfront : rest.dropWhile fun c => decide (c ≠ '/') with
      | nil => exact .inl rfl
      | cons c others =>
        have hc : c = '/' := by
          have hhead := List.head?_dropWhile_not (fun c => decide (c ≠ '/')) rest
          rw [hfront] at hhead
          simpa using hhead
        exact .inr ⟨others.reverse, by rw [hc, List.reverse_cons]⟩

/-- Every text with names in it ends in a piece. -/
theorem exists_endsIn {text : List Char} (h : namesOf text ≠ []) :
    ∃ front piece count, EndsIn text front piece count := by
  rcases endsIn_or_slashes text with hends | ⟨count, rfl⟩
  · exact hends
  · exact absurd (namesOf_slashes [] count) h

variable {text front piece : List Char} {count : Nat}

theorem EndsIn.head?_piece (h : EndsIn text front piece count) :
    ∀ c ∈ (piece.reverse ++ front.reverse).head?, decide (c = '/') = false := by
  intro c hc
  cases hpiece : piece.reverse with
  | nil => exact absurd (List.reverse_eq_nil_iff.1 hpiece) h.piece_ne_nil
  | cons first rest =>
    rw [hpiece] at hc
    cases hc
    have hmem : c ∈ piece := List.mem_reverse.1 (hpiece ▸ List.mem_cons_self ..)
    simpa using fun heq : c = '/' => h.slash_notMem (heq ▸ hmem)

theorem EndsIn.namesOf_eq (h : EndsIn text front piece count) :
    namesOf text = namesOf front ++ namesOf piece := by
  rw [h.eq, namesOf_slashes]
  rcases h.front_eq with rfl | ⟨outer, rfl⟩
  · rfl
  · rw [namesOf_slash, List.append_assoc, List.singleton_append, namesOf_append]

theorem EndsIn.trimmed_eq (h : EndsIn text front piece count) : trimmed text = front ++ piece := by
  have hreverse : text.reverse.dropWhile (fun c => decide (c = '/')) =
      piece.reverse ++ front.reverse := by
    rw [h.eq, List.reverse_append, List.reverse_replicate, List.reverse_append]
    refine dropWhile_append (fun c hc => ?_) h.head?_piece
    simpa using List.eq_of_mem_replicate hc
  unfold trimmed
  rw [hreverse, ← List.reverse_append, List.reverse_reverse]
  split
  · next hnil => exact absurd (List.append_eq_nil_iff.1 hnil).2 h.piece_ne_nil
  · rfl

theorem EndsIn.parentText_eq (h : EndsIn text front piece count) :
    parentText text = if front = [] then ['.'] else trimmed front := by
  have hreverse : (trimmed text).reverse.dropWhile (fun c => decide (c ≠ '/')) =
      front.reverse := by
    rw [h.trimmed_eq, List.reverse_append]
    refine dropWhile_append (fun c hc => ?_) fun c hc => ?_
    · simpa using fun heq : c = '/' => h.slash_notMem (heq ▸ List.mem_reverse.1 hc)
    · rcases h.front_eq with rfl | ⟨outer, rfl⟩
      · cases hc
      · rw [List.reverse_append] at hc
        cases hc
        rfl
  unfold parentText
  rw [hreverse]
  split
  · next hnil => rw [if_pos (List.reverse_eq_nil_iff.1 hnil)]
  · next hne =>
    rw [if_neg fun hnil => hne (by rw [hnil]; rfl), List.reverse_reverse]

theorem pieces_slashes (hpiece : '/' ∉ piece) (count : Nat) :
    pieces '/' (piece ++ List.replicate count '/') = piece :: List.replicate count [] := by
  induction count with
  | zero => rw [List.replicate_zero, List.append_nil, Text.pieces_of_notMem hpiece]; rfl
  | succ count ih =>
    rw [List.replicate_succ', ← List.append_assoc, Text.pieces_append, ih, List.replicate_succ']
    rfl

theorem EndsIn.lastPiece_eq (h : EndsIn text front piece count) :
    Disk.lastPiece (pathOf text) = String.ofList piece := by
  have hlast : ((pieces '/' text).filter fun piece => decide (piece ≠ [])).getLast? =
      some piece := by
    have hend : (pieces '/' (piece ++ List.replicate count '/')).filter
        (fun piece => decide (piece ≠ [])) = [piece] := by
      rw [pieces_slashes h.slash_notMem, List.filter_cons_of_pos (by simpa using h.piece_ne_nil),
        List.filter_replicate]
      rfl
    rw [h.eq]
    rcases h.front_eq with rfl | ⟨outer, rfl⟩
    · rw [List.nil_append, hend]
      rfl
    · rw [List.append_assoc, List.append_assoc, List.singleton_append, Text.pieces_append,
        List.filter_append, hend, List.getLast?_append]
      rfl
  unfold Disk.lastPiece
  rw [pathOf, String.toList_ofList, hlast]
  rfl

/-! ## Trimmed texts and parents -/

theorem isAbsolute_append {front : List Char} (h : front ≠ []) (back : List Char) :
    (pathOf (front ++ back)).isAbsolute = (pathOf front).isAbsolute := by
  cases front with
  | nil => exact absurd rfl h
  | cons c front => simp [isAbsolute, pathOf]

theorem hasNul_append (front back : List Char) :
    (pathOf (front ++ back)).hasNul = ((pathOf front).hasNul || (pathOf back).hasNul) := by
  simp only [hasNul, pathOf, String.toList_ofList, List.contains_append]

/-- Only slashes at the end are trimmed, and not all of a text. -/
theorem exists_trimmed {text : List Char} (h : text ≠ []) :
    ∃ count, text = trimmed text ++ List.replicate count '/' ∧ trimmed text ≠ [] := by
  obtain ⟨count, htext⟩ := exists_slashes text
  unfold trimmed
  split
  · next hnil =>
    rw [hnil, List.nil_append] at htext
    cases count with
    | zero => exact absurd htext h
    | succ count =>
      rw [htext]
      exact ⟨count, rfl, nofun⟩
  · next hne => exact ⟨count, htext, fun hnil => hne hnil⟩

theorem EndsIn.namesOf_parentText (h : EndsIn text front piece count) :
    namesOf (parentText text) = namesOf front := by
  rw [h.parentText_eq]
  split
  · next hnil =>
    rw [hnil]
    rfl
  · next hne =>
    obtain ⟨slashes, hfront, -⟩ := exists_trimmed hne
    have hnames := congrArg namesOf hfront
    rw [namesOf_slashes] at hnames
    exact hnames.symm

theorem EndsIn.isAbsolute_parentText (h : EndsIn text front piece count) :
    (pathOf (parentText text)).isAbsolute = (pathOf text).isAbsolute := by
  rw [h.parentText_eq, h.eq, List.append_assoc]
  split
  · next hnil =>
    rw [hnil, List.nil_append, isAbsolute_append h.piece_ne_nil]
    cases hpiece : piece with
    | nil => exact absurd hpiece h.piece_ne_nil
    | cons c rest =>
      have hc : c ≠ '/' := fun hc => h.slash_notMem (by rw [hpiece, hc]; exact .head _)
      simp [isAbsolute, pathOf, hc]
  · next hne =>
    obtain ⟨slashes, hfront, htrimmed⟩ := exists_trimmed hne
    have habsolute := congrArg (fun front => (pathOf front).isAbsolute) hfront
    simp only [isAbsolute_append htrimmed] at habsolute
    rw [isAbsolute_append hne, habsolute]

theorem EndsIn.hasNul_parentText (h : EndsIn text front piece count)
    (hnul : (pathOf text).hasNul = false) : (pathOf (parentText text)).hasNul = false := by
  rw [h.parentText_eq]
  split
  · rfl
  · next hne =>
    obtain ⟨slashes, hfront, -⟩ := exists_trimmed hne
    rw [h.eq, hasNul_append, hasNul_append, hfront, hasNul_append] at hnul
    simp only [Bool.or_eq_false_iff] at hnul
    exact hnul.1.1.1

theorem EndsIn.parentText_ne_nil (h : EndsIn text front piece count) : parentText text ≠ [] := by
  rw [h.parentText_eq]
  split
  · nofun
  · next hne =>
    obtain ⟨_, _, htrimmed⟩ := exists_trimmed hne
    exact htrimmed

theorem EndsIn.length_parentText (h : EndsIn text front piece count) (hfront : front ≠ []) :
    (parentText text).length < text.length := by
  obtain ⟨slashes, htrimmed, -⟩ := exists_trimmed hfront
  have hlength := congrArg List.length htrimmed
  have hpiece := List.length_pos_iff.2 h.piece_ne_nil
  rw [h.parentText_eq, if_neg hfront, h.eq]
  simp only [List.length_append] at hlength ⊢
  omega

/-! ## Any text -/

theorem lastPiece_slashes (count : Nat) :
    Disk.lastPiece (pathOf (List.replicate count '/')) = "" := by
  have hpieces : pieces '/' ([] ++ List.replicate count '/') = [] :: List.replicate count [] :=
    pieces_slashes List.not_mem_nil count
  unfold Disk.lastPiece
  rw [pathOf, String.toList_ofList, ← List.nil_append (List.replicate count '/'), hpieces,
    ← List.replicate_succ, List.filter_replicate]
  rfl

/-- The last piece of a path is its last name, if it names anything. -/
theorem getLast?_components {path : Path} (hempty : Disk.lastPiece path ≠ "")
    (hdot : Disk.lastPiece path ≠ ".") :
    path.components.getLast? = some (Disk.lastPiece path) := by
  obtain ⟨text, rfl⟩ : ∃ text, path = pathOf text :=
    ⟨path.text.toList, by rw [pathOf, String.ofList_toList]⟩
  rcases endsIn_or_slashes text with ⟨front, piece, count, hends⟩ | ⟨count, rfl⟩
  · rw [hends.lastPiece_eq] at hdot ⊢
    have hpiece : piece ≠ ['.'] := fun heq => hdot (by rw [heq])
    rw [components_pathOf, hends.namesOf_eq, namesOf_piece hends.piece_ne_nil hends.slash_notMem,
      if_neg hpiece, List.getLast?_concat]
  · exact absurd (lastPiece_slashes count) hempty

/-- A path that names something has a last piece. -/
theorem lastPiece_ne_empty {path : Path} (h : path.components ≠ []) : Disk.lastPiece path ≠ "" := by
  obtain ⟨text, rfl⟩ : ∃ text, path = pathOf text :=
    ⟨path.text.toList, by rw [pathOf, String.ofList_toList]⟩
  rw [components_pathOf] at h
  obtain ⟨front, piece, count, hends⟩ := exists_endsIn h
  rw [hends.lastPiece_eq]
  exact fun hempty => hends.piece_ne_nil (by simpa using hempty)

theorem trimmed_slashes (count : Nat) : trimmed (List.replicate (count + 1) '/') = ['/'] := by
  have hnil : (List.replicate (count + 1) '/').dropWhile (fun c => decide (c = '/')) = [] := by
    rw [List.dropWhile_replicate]
    rfl
  unfold trimmed
  rw [List.reverse_replicate, hnil]
  rfl

theorem namesOf_trimmed (text : List Char) : namesOf (trimmed text) = namesOf text := by
  cases text with
  | nil => rfl
  | cons c rest =>
    obtain ⟨count, htext, -⟩ := exists_trimmed (List.cons_ne_nil c rest)
    have hnames := congrArg namesOf htext
    rw [namesOf_slashes] at hnames
    exact hnames.symm

theorem isAbsolute_trimmed (text : List Char) :
    (pathOf (trimmed text)).isAbsolute = (pathOf text).isAbsolute := by
  cases text with
  | nil => rfl
  | cons c rest =>
    obtain ⟨count, htext, hne⟩ := exists_trimmed (List.cons_ne_nil c rest)
    have habsolute := congrArg (fun text => (pathOf text).isAbsolute) htext
    simp only [isAbsolute_append hne] at habsolute
    exact habsolute.symm

theorem parentText_slashes (count : Nat) :
    parentText (List.replicate (count + 1) '/') = ['/'] := by
  unfold parentText
  rw [trimmed_slashes]
  rfl

/-- The names of the directory that a path lies in are the first names of the path. -/
theorem namesOf_parentText_prefix (text : List Char) :
    namesOf (parentText text) <+: namesOf text := by
  rcases endsIn_or_slashes text with ⟨front, piece, count, hends⟩ | ⟨count, rfl⟩
  · rw [hends.namesOf_parentText, hends.namesOf_eq]
    exact List.prefix_append _ _
  · cases count with
    | zero => exact List.nil_prefix
    | succ count =>
      rw [parentText_slashes]
      exact List.nil_prefix

theorem isAbsolute_parentText (text : List Char) :
    (pathOf (parentText text)).isAbsolute = (pathOf text).isAbsolute := by
  rcases endsIn_or_slashes text with ⟨front, piece, count, hends⟩ | ⟨count, rfl⟩
  · exact hends.isAbsolute_parentText
  · cases count with
    | zero => rfl
    | succ count =>
      rw [parentText_slashes, List.replicate_succ]
      simp [isAbsolute, pathOf]

end Path

end PreviewInstaller
