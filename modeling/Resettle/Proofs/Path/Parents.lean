import Mathlib.Data.List.Infix
import Resettle.Proofs.Path.Segments

/-!
# Names of paths

The names of a path are its segments that lead somewhere: not the empty ones and not the dots.  The
parent of a path lacks the last of them, and a name that is joined to a path is one more.
-/

namespace Resettle

namespace Text

variable {sep : Char} {pieces : List (List Char)}

/-- Stretches without the separator are told by the text that they are joined to. -/
theorem split_join (hne : pieces ≠ []) (h : ∀ piece ∈ pieces, sep ∉ piece) :
    split sep (join sep pieces) = pieces := by
  induction pieces with
  | nil => exact absurd rfl hne
  | cons piece more ih =>
      obtain ⟨hpiece, hmore⟩ := List.forall_mem_cons.1 h
      cases more with
      | nil => exact split_of_notMem hpiece
      | cons next rest =>
          have hjoin : join sep (piece :: next :: rest) =
              piece ++ sep :: join sep (next :: rest) := rfl
          rw [hjoin, split_append_cons, split_of_notMem hpiece, ih (List.cons_ne_nil _ _) hmore]
          rfl

end Text

namespace Path

/-- Whether a segment leads somewhere. -/
def isStep (segment : List Char) : Bool :=
  segment ≠ [] && segment ≠ ['.']

def names (p : Path) : List String :=
  p.segments.filter fun s => s ≠ "" && s ≠ "."

variable {p q : Path} {name : String} {r rest : List (List Char)} {s : List Char}

theorem names_eq_map (p : Path) :
    p.names = ((Text.split '/' p.text.toList).filter isStep).map String.ofList := by
  rw [names, segments, List.filter_map]
  congr 1
  refine List.filter_congr fun s _ => ?_
  have hnil : (String.ofList s = "") ↔ s = [] := by rw [← String.toList_inj]; simp
  have hdot : (String.ofList s = ".") ↔ s = ['.'] := by rw [← String.toList_inj]; simp
  simp [isStep, hnil, hdot]

theorem text_ne_empty (h : p.names ≠ []) : p.text ≠ "" := by
  obtain ⟨text⟩ := p
  rintro (rfl : text = "")
  exact h rfl

/-! ## Parents -/

theorem filter_dropIdle (r : List (List Char)) : (dropIdle r).filter isStep = r.filter isStep := by
  fun_induction dropIdle r with
  | case1 => rfl
  | case2 => rfl
  | case3 s rest _ hidle ih =>
      rw [ih, List.filter_cons_of_neg]
      rcases hidle with rfl | rfl <;> decide
  | case4 => rfl

theorem dropIdle_suffix (r : List (List Char)) : dropIdle r <:+ r := by
  fun_induction dropIdle r with
  | case1 => exact List.suffix_rfl
  | case2 => exact List.suffix_rfl
  | case3 s rest _ hidle ih => exact ih.trans (List.suffix_cons s rest)
  | case4 => exact List.suffix_rfl

/-- What is left starts with a segment that leads somewhere, or is the first segment of the path. -/
theorem exists_dropIdle (hr : r ≠ []) :
    ∃ s rest, dropIdle r = s :: rest ∧ (isStep s = true ∨ rest = []) := by
  fun_induction dropIdle r with
  | case1 => exact absurd rfl hr
  | case2 s => exact ⟨s, [], rfl, .inr rfl⟩
  | case3 s rest hrest hidle ih => exact ih hrest
  | case4 s rest hrest hstep =>
      rw [not_or] at hstep
      exact ⟨s, rest, rfl, .inl (by simp [isStep, hstep])⟩

/-- What is kept of the segments, in reverse order, for the parent of a path. -/
def keptSegments (p : Path) : List (List Char) :=
  dropIdle ((dropIdle (Text.split '/' p.text.toList).reverse).drop 1)

theorem parent?_eq_some (h : p.parent? = some q) :
    p.text ≠ "" ∧ q = if p.isAbsolute ∧ p.keptSegments.length ≤ 1 then ⟨"/"⟩
      else ⟨String.ofList (Text.join '/' p.keptSegments.reverse)⟩ := by
  refine ⟨?_, ?_⟩
  · intro hempty
    obtain ⟨text⟩ := p
    change text = "" at hempty
    subst hempty
    cases h
  · unfold parent? at h
    split at h
    · cases h
    · cases h
    · change (if p.isAbsolute ∧ p.keptSegments.length ≤ 1 then some (⟨"/"⟩ : Path)
        else some ⟨String.ofList (Text.join '/' p.keptSegments.reverse)⟩) = some q at h
      split at h
      · next hroot => rw [if_pos hroot, Option.some.inj h]
      · next hroot => rw [if_neg hroot, Option.some.inj h]

theorem keptSegments_suffix (p : Path) :
    p.keptSegments <:+ (Text.split '/' p.text.toList).reverse :=
  (dropIdle_suffix _).trans ((List.drop_suffix 1 _).trans (dropIdle_suffix _))

theorem filter_keptSegments (p : Path) :
    p.keptSegments.reverse.filter isStep =
      ((Text.split '/' p.text.toList).filter isStep).dropLast := by
  have hne : (Text.split '/' p.text.toList).reverse ≠ [] := by simp [Text.split_ne_nil]
  obtain ⟨s, rest, hcut, hs⟩ := exists_dropIdle hne
  have hsteps := filter_dropIdle (Text.split '/' p.text.toList).reverse
  rw [hcut, List.filter_reverse] at hsteps
  have hsegments := List.reverse_eq_iff.1 hsteps.symm
  rw [keptSegments, hcut, List.drop_one, List.tail_cons, List.filter_reverse, filter_dropIdle,
    hsegments]
  by_cases hstep : isStep s = true
  · rw [List.filter_cons_of_pos hstep, List.reverse_cons, List.dropLast_concat]
  · obtain rfl := hs.resolve_left hstep
    rw [List.filter_cons_of_neg hstep]
    rfl

theorem isAbsolute_iff : p.isAbsolute = true ↔ ∃ rest, p.text.toList = '/' :: rest := by
  rw [isAbsolute, beq_iff_eq, List.head?_eq_some_iff]

theorem split_of_isAbsolute (h : p.isAbsolute = true) :
    ∃ more, more ≠ [] ∧ Text.split '/' p.text.toList = [] :: more := by
  obtain ⟨rest, hrest⟩ := isAbsolute_iff.1 h
  exact ⟨Text.split '/' rest, Text.split_ne_nil _ _, by rw [hrest]; rfl⟩

theorem split_of_not_isAbsolute (hempty : p.text ≠ "") (h : p.isAbsolute = false) :
    ∃ c cs more, c ≠ '/' ∧ Text.split '/' p.text.toList = (c :: cs) :: more := by
  cases htext : p.text.toList with
  | nil => exact absurd (String.toList_eq_nil_iff.1 htext) hempty
  | cons c rest =>
      have hc : c ≠ '/' := by
        rintro rfl
        rw [isAbsolute_iff.2 ⟨rest, htext⟩] at h
        cases h
      obtain ⟨piece, more, hmore⟩ := List.exists_cons_of_ne_nil (Text.split_ne_nil '/' rest)
      exact ⟨c, piece, more, hc, by simp [Text.split, hc, hmore]⟩

theorem getLast?_keptSegments (h : p.keptSegments ≠ []) :
    p.keptSegments.getLast? = (Text.split '/' p.text.toList).head? := by
  obtain ⟨front, hfront⟩ := p.keptSegments_suffix
  rw [← List.getLast?_reverse, ← hfront, List.getLast?_append_of_ne_nil _ h]

theorem split_kept (h : p.keptSegments ≠ []) :
    Text.split '/' (Text.join '/' p.keptSegments.reverse) = p.keptSegments.reverse := by
  refine Text.split_join (List.reverse_ne_nil_iff.2 h) fun piece hpiece => ?_
  have hmem := p.keptSegments_suffix.subset (List.mem_reverse.1 hpiece)
  exact Text.sep_notMem_of_mem_split (List.mem_reverse.1 hmem)

theorem isAbsolute_join_kept (hempty : p.text ≠ "") (h : p.keptSegments ≠ [])
    (hroot : ¬(p.isAbsolute = true ∧ p.keptSegments.length ≤ 1)) :
    isAbsolute ⟨String.ofList (Text.join '/' p.keptSegments.reverse)⟩ = p.isAbsolute := by
  have hfirst := getLast?_keptSegments h
  have hlength := p.keptSegments.length_reverse
  obtain ⟨s, rest, hkept⟩ := List.exists_cons_of_ne_nil (List.reverse_ne_nil_iff.2 h)
  rw [← List.head?_reverse, hkept, List.head?_cons] at hfirst
  rw [hkept] at hlength ⊢
  cases habsolute : p.isAbsolute with
  | true =>
      obtain ⟨more, -, hsplit⟩ := split_of_isAbsolute habsolute
      obtain rfl : s = [] := by simpa [hsplit] using hfirst
      -- another segment is kept, so that the text starts with a separator
      cases rest with
      | nil => exact absurd ⟨habsolute, hlength.symm.le⟩ hroot
      | cons next rest => simp [isAbsolute, Text.join]
  | false =>
      obtain ⟨c, cs, more, hc, hsplit⟩ := split_of_not_isAbsolute hempty habsolute
      obtain rfl : s = c :: cs := by simpa [hsplit] using hfirst
      cases rest <;> simp [isAbsolute, Text.join, hc]

/-- The parent of a path lacks its last name, and starts where the path starts. -/
theorem names_parent (h : p.parent? = some q) :
    q.names = p.names.dropLast ∧ q.isAbsolute = p.isAbsolute := by
  obtain ⟨hempty, rfl⟩ := parent?_eq_some h
  have hnames : p.names.dropLast = (p.keptSegments.reverse.filter isStep).map String.ofList := by
    rw [filter_keptSegments, names_eq_map, List.map_dropLast]
  have hfirst := @getLast?_keptSegments p
  rw [hnames]
  split
  · next hroot =>
      obtain ⟨more, -, hsplit⟩ := split_of_isAbsolute hroot.1
      refine ⟨?_, hroot.1.symm⟩
      rw [hsplit] at hfirst
      cases hkept : p.keptSegments with
      | nil => rfl
      | cons s rest =>
          have hrest : rest = [] := by
            have hlength := hroot.2
            rw [hkept, List.length_cons] at hlength
            exact List.length_eq_zero_iff.1 (by omega)
          subst hrest
          rw [hkept] at hfirst
          obtain rfl : s = [] := by simpa using hfirst (by simp)
          rfl
  · next hroot =>
      by_cases hnil : p.keptSegments = []
      · rw [hnil] at hroot ⊢
        have hrelative : p.isAbsolute = false := by simpa using hroot
        exact ⟨rfl, hrelative.symm⟩
      · refine ⟨?_, ?_⟩
        · rw [names_eq_map, String.toList_ofList, split_kept hnil]
        · exact isAbsolute_join_kept hempty hnil hroot

/-- The paths above a path have fewer of its names, and start where it starts. -/
theorem names_of_mem_ancestors {depth : Nat} (h : q ∈ p.ancestors depth) :
    q.names <+: p.names ∧ q.isAbsolute = p.isAbsolute := by
  induction depth generalizing p with
  | zero => cases h
  | succ depth ih =>
      rcases List.mem_cons.1 h with rfl | habove
      · exact ⟨List.prefix_rfl, rfl⟩
      · cases hparent : p.parent? with
        | none =>
            rw [hparent] at habove
            cases habove
        | some parent =>
            rw [hparent] at habove
            obtain ⟨hnames, habsolute⟩ := names_parent hparent
            obtain ⟨hbegins, hsame⟩ := ih habove
            rw [hnames] at hbegins
            exact ⟨hbegins.trans (List.dropLast_prefix _), hsame.trans habsolute⟩

/-! ## Last names -/

theorem getLast?_place (h : p.names ≠ []) : p.place.getLast? = p.names.getLast? := by
  obtain ⟨front, last, hnames⟩ := List.eq_nil_or_concat p.names |>.resolve_left h
  rw [List.concat_eq_append] at hnames
  change (if p.isAbsolute then "/" :: p.names
    else if p.segments.head? = some "." then "." :: p.names else p.names).getLast? = _
  rw [hnames]
  split
  · rw [← List.cons_append, List.getLast?_concat, List.getLast?_concat]
  · split
    · rw [← List.cons_append, List.getLast?_concat, List.getLast?_concat]
    · rfl

theorem mem_names_iff {s : String} : s ∈ p.names ↔ s ∈ p.segments ∧ s ≠ "" ∧ s ≠ "." := by
  simp [names]

/-- A path without `..` that has names ends in one of them, and has a parent. -/
theorem exists_fileName (h : p.names ≠ []) (hup : ".." ∉ p.names) :
    ∃ last parent, p.names.getLast? = some last ∧ p.fileName? = some last ∧
      p.parent? = some parent := by
  obtain ⟨last, hlast⟩ := List.getLast?_isSome.2 h |> Option.isSome_iff_exists.1
  have hmem := List.mem_of_getLast? hlast
  obtain ⟨hsegment, -, hdot⟩ := mem_names_iff.1 hmem
  have hroot : last ≠ "/" := by
    rintro rfl
    exact absurd (sep_notMem_of_mem_segments hsegment) (by decide)
  have hdots : last ≠ ".." := fun heq => hup (heq ▸ hmem)
  have hplace : p.place.getLast? = some last := (getLast?_place h).trans hlast
  have hparent : p.parent?.isSome := by
    unfold parent?
    rw [hplace]
    split
    · next hnone => cases hnone
    · next hsome => exact absurd (Option.some.inj hsome) hroot
    · dsimp only
      split <;> rfl
  obtain ⟨parent, hparent⟩ := Option.isSome_iff_exists.1 hparent
  refine ⟨last, parent, hlast, ?_, hparent⟩
  rw [fileName?, hplace, Option.filter_some, if_pos (by simp [hroot, hdot, hdots])]

theorem names_append (front back : String) :
    names ⟨front ++ "/" ++ back⟩ = names ⟨front⟩ ++ names ⟨back⟩ := by
  have hcut : (front ++ "/" ++ back).toList = front.toList ++ '/' :: back.toList := by simp
  rw [names, names, names, segments, segments, segments, hcut, Text.split_append_cons,
    List.map_append, List.filter_append]

theorem names_of_name (hslash : '/' ∉ name.toList) (hne : name ≠ "") (hdot : name ≠ ".") :
    names ⟨name⟩ = [name] := by
  rw [names, segments, Text.split_of_notMem hslash, List.map_singleton, String.ofList_toList,
    List.filter_cons_of_pos (by simp [hne, hdot])]
  rfl

theorem names_join (hslash : '/' ∉ name.toList) (hne : name ≠ "") (hdot : name ≠ ".")
    (base : Path) : (base.join name).names = base.names ++ [name] ∧
      (base.join name).isAbsolute = base.isAbsolute := by
  have hname := names_of_name hslash hne hdot
  have hhead : name.toList.head? ≠ some '/' := fun hfirst => hslash (List.mem_of_head? hfirst)
  obtain ⟨text⟩ := base
  unfold join
  rw [if_neg hhead]
  dsimp only
  split
  · next hbase =>
      rcases hbase with rfl | hend
      · rw [String.empty_append]
        refine ⟨hname, ?_⟩
        rw [isAbsolute, beq_eq_false_iff_ne.2 hhead]
        rfl
      · obtain ⟨front, hfront⟩ := List.getLast?_eq_some_iff.1 hend
        have hcut : text = String.ofList front ++ "/" := by
          rw [← String.toList_inj]
          simpa using hfront
        subst hcut
        have hfront := names_append (String.ofList front) ""
        rw [String.append_empty, show names ⟨""⟩ = [] from rfl, List.append_nil] at hfront
        refine ⟨by rw [names_append, hname, hfront], ?_⟩
        cases front <;> simp [isAbsolute]
  · next hbase =>
      refine ⟨by rw [names_append, hname], ?_⟩
      obtain ⟨c, cs, htext⟩ := List.exists_cons_of_ne_nil
        (fun hnil => hbase (.inl (String.toList_eq_nil_iff.1 hnil)) : text.toList ≠ [])
      simp [isAbsolute, htext]

/-- Another last name takes the place of the one that a path ends in. -/
theorem names_withFileName (h : p.names ≠ []) (hup : ".." ∉ p.names)
    (hslash : '/' ∉ name.toList) (hne : name ≠ "") (hdot : name ≠ ".") :
    (p.withFileName name).names = p.names.dropLast ++ [name] ∧
      (p.withFileName name).isAbsolute = p.isAbsolute := by
  obtain ⟨last, parent, -, hlast, hparent⟩ := exists_fileName h hup
  obtain ⟨hnames, habsolute⟩ := names_parent hparent
  obtain ⟨hjoined, hkept⟩ := names_join hslash hne hdot parent
  rw [withFileName, hlast, hparent]
  exact ⟨by rw [hjoined, hnames], hkept.trans habsolute⟩

end Path

end Resettle
