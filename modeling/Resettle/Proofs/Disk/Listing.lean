import Mathlib.Data.List.Infix
import Resettle.Listing
import Resettle.Proofs.Disk.Names
import Resettle.Proofs.Path.Segments
import Resettle.Project

/-!
# Listed files

No two files that are listed lie at the same place, and the files of two areas of a project lie
apart, because the last names of their paths, or the names in front of them, differ.
-/

namespace Resettle

namespace Path

theorem suffix_place {p : Path} {front last : List String} (h : p.segments = front ++ last)
    (hlast : ∀ name ∈ last, name ≠ "" ∧ name ≠ ".") : last <:+ p.place := by
  have hkept : last.filter (fun s => s ≠ "" && s ≠ ".") = last :=
    List.filter_eq_self.2 fun name hname => by simp [hlast name hname]
  have hnames : last <:+ p.segments.filter fun s => s ≠ "" && s ≠ "." := by
    rw [h, List.filter_append, hkept]
    exact List.suffix_append _ _
  unfold place
  dsimp only
  split
  · exact hnames.trans (List.suffix_cons _ _)
  · split
    · exact hnames.trans (List.suffix_cons _ _)
    · exact hnames

/-- A name that is joined to a path which ends in a name stands behind that name. -/
theorem segments_join_of_last {base : Path} {front : List String} {last name : String}
    (h : base.segments = front ++ [last]) (hlast : last ≠ "") (hname : '/' ∉ name.toList) :
    (base.join name).segments = front ++ [last, name] := by
  have hend : base.segments.getLast? = some last := by simp [h]
  have hhead : name.toList.head? ≠ some '/' := fun hfirst => hname (List.mem_of_head? hfirst)
  have hempty : base.text ≠ "" := by
    intro htext
    rw [segments, htext] at hend
    exact hlast (Option.some.inj hend).symm
  have hslash : base.text.toList.getLast? ≠ some '/' := by
    intro hlast'
    obtain ⟨stem, hstem⟩ := List.getLast?_eq_some_iff.1 hlast'
    rw [segments, hstem, Text.split_append_cons, List.map_append, List.getLast?_append] at hend
    exact hlast (Option.some.inj hend).symm
  have hsplit : (Text.split '/' name.toList).map String.ofList = [name] := by
    rw [Text.split_of_notMem hname, List.map_singleton, String.ofList_toList]
  have hjoined : (base.text ++ "/" ++ name).toList = base.text.toList ++ '/' :: name.toList := by
    simp
  have hbase : (Text.split '/' base.text.toList).map String.ofList = front ++ [last] := h
  unfold join segments
  rw [if_neg hhead, if_neg (by simp [hempty, hslash]), hjoined, Text.split_append_cons,
    List.map_append, hbase, hsplit, List.append_assoc]
  rfl

end Path

namespace Listing

variable {d : Disk} {area : String}

theorem segments_of_notMem {name : String} (h : '/' ∉ name.toList) :
    (⟨name⟩ : Path).segments = [] ++ [name] := by
  unfold Path.segments
  rw [Text.split_of_notMem h, List.map_singleton, String.ofList_toList]
  rfl

theorem eq_of_suffix {xs ys zs : List String} (hx : xs <:+ zs) (hy : ys <:+ zs)
    (h : xs.length = ys.length) : xs = ys :=
  (List.suffix_of_suffix_length_le hx hy h.le).eq_of_length h

theorem suffix_place_join {p : Path} {front : List String} {name : String}
    (hp : p.segments = front ++ [area]) (harea : Disk.IsName area) (hname : Disk.IsName name) :
    [area, name] <:+ (p.join name).place := by
  refine Path.suffix_place (Path.segments_join_of_last hp harea.1 hname.2.2) ?_
  intro other hother
  have hother : Disk.IsName other := by
    simp only [List.mem_cons, List.not_mem_nil, or_false] at hother
    rcases hother with rfl | rfl
    · exact harea
    · exact hname
  refine ⟨hother.1, ?_⟩
  rintro rfl
  exact absurd hother.2.1 (by decide)

/-- The path under which a directory's files are listed ends in the directory's name. -/
theorem segments_of_spelled? {base p : Path} (harea : Disk.IsName area)
    (h : spelled? d (base.join area) = some p) : ∃ front, p.segments = front ++ [area] := by
  obtain ⟨front, hfront⟩ := Path.segments_join harea.2.2 base
  have hfollow : ∀ p₀ segments, (segments ++ [area]).foldlM (follow? d) p₀ = some p →
      ∃ front, p.segments = front ++ [area] := by
    intro p₀ segments hp
    rw [List.foldlM_append] at hp
    obtain ⟨q, -, hq⟩ := Option.bind_eq_some_iff.1 hp
    have hq : follow? d q area = some p := by simpa using hq
    obtain ⟨-, hp⟩ := Option.ite_none_right_eq_some.1 hq
    obtain rfl := Option.some.inj hp
    split
    · exact ⟨[], segments_of_notMem harea.2.2⟩
    · exact Path.segments_join harea.2.2 q
  unfold spelled? at h
  rw [hfront] at h
  split at h
  · cases front with
    | nil =>
        next habsolute =>
        have hhead : (base.join area).text.toList.head? = some '/' := by
          simpa [Path.isAbsolute] using habsolute
        obtain ⟨rest, hrest⟩ := List.head?_eq_some_iff.1 hhead
        rw [Path.segments, hrest] at hfront
        have hfirst : "" = area := (List.cons.inj hfront).1
        exact absurd hfirst.symm harea.1
    | cons first front => exact hfollow _ front h
  · exact hfollow _ front h

theorem php_of_names {dir p : Path} {names : List String} (hdir : d.isDirectory dir = true)
    (hp : spelled? d dir = some p) (hnames : d.names p = names) :
    php d dir =
      ((names.filter fun name => ".php".toList.isSuffixOf name.toList).map (child p)).filter
        d.isFile := by
  unfold php withExtension
  rw [hdir, hp, ← hnames]
  rfl

/-- Listed files are children of one directory, whose path ends in the directory's name. -/
theorem exists_children (base : Path) (harea : Disk.IsName area) :
    ∃ (p : Path) (front names : List String), p.segments = front ++ [area] ∧ names.Sublist (d.names p) ∧
      php d (base.join area) = (names.map p.join).filter d.isFile := by
  unfold php withExtension
  split
  · exact ⟨⟨area⟩, [], [], segments_of_notMem harea.2.2, List.nil_sublist _, rfl⟩
  · cases hspelled : spelled? d (base.join area) with
    | none => exact ⟨⟨area⟩, [], [], segments_of_notMem harea.2.2, List.nil_sublist _, rfl⟩
    | some p =>
        obtain ⟨front, hfront⟩ := segments_of_spelled? harea hspelled
        have hdot : p.text ≠ "." := by
          intro htext
          have hdots : p.segments = [] ++ ["."] := by rw [Path.segments, htext]; rfl
          have hlast := (List.append_inj' (hdots.symm.trans hfront) rfl).2
          rw [← (List.cons.inj hlast).1] at harea
          exact absurd harea.2.1 (by decide)
        have hchild : child p = p.join := by
          funext name
          rw [child, if_neg hdot]
        exact ⟨p, front, _, hfront, List.filter_sublist, by rw [← hchild]⟩

variable {base : Path}

/-- A listed file has the name of its directory and its own at the end of its place. -/
theorem suffix_place_of_mem (hnamed : d.Named) (harea : Disk.IsName area) {f : Path}
    (h : f ∈ php d (base.join area)) : ∃ name, [area, name] <:+ f.place := by
  obtain ⟨p, front, names, hp, hnames, hphp⟩ := exists_children (d := d) base harea
  rw [hphp] at h
  obtain ⟨name, hname, rfl⟩ := List.mem_map.1 (List.mem_filter.1 h).1
  exact ⟨name, suffix_place_join hp harea (hnamed.isName_of_mem (hnames.subset hname))⟩

theorem nodup_places (hnamed : d.Named) (harea : Disk.IsName area) :
    ((php d (base.join area)).map Path.place).Nodup := by
  obtain ⟨p, front, names, hp, hnames, hphp⟩ := exists_children (d := d) base harea
  rw [hphp]
  refine List.Nodup.sublist (List.filter_sublist.map _) ?_
  rw [List.map_map]
  refine List.Nodup.map_on ?_ ((d.nodup_names p).sublist hnames)
  intro name hname name' hname' heq
  have hsuffix := suffix_place_join hp harea (hnamed.isName_of_mem (hnames.subset hname))
  have hsuffix' := suffix_place_join hp harea (hnamed.isName_of_mem (hnames.subset hname'))
  rw [show (p.join name).place = (p.join name').place from heq] at hsuffix
  exact (List.cons.inj (List.cons.inj (eq_of_suffix hsuffix hsuffix' rfl)).2).1

/-- No listed file of one area lies at the place of a listed file of another. -/
theorem disjoint_places {area' : String} {base' : Path} (hnamed : d.Named)
    (harea : Disk.IsName area) (harea' : Disk.IsName area') (hne : area ≠ area') :
    List.Disjoint ((php d (base.join area)).map Path.place)
      ((php d (base'.join area')).map Path.place) := by
  intro place hplace hplace'
  obtain ⟨f, hf, rfl⟩ := List.mem_map.1 hplace
  obtain ⟨f', hf', heq⟩ := List.mem_map.1 hplace'
  obtain ⟨name, hname⟩ := suffix_place_of_mem hnamed harea hf
  obtain ⟨name', hname'⟩ := suffix_place_of_mem hnamed harea' hf'
  rw [heq] at hname'
  exact hne (List.cons.inj (eq_of_suffix hname hname' rfl)).1

end Listing

end Resettle
